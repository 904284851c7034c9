import DocumentStore.Proofs.Access.Contexts
import DocumentStore.Proofs.Operation.Chains
set_option autoImplicit false

/-!
# Every operation is all or nothing

Under the transactional policy an operation of a handle without an open transaction makes all of its
writes or none, leaves no transaction open, and reports the failures of its calls as those of a read
or of a write.  This is put together from what the calls of each operation leave.
-/

namespace DocumentStore

open Context

variable {ι : Type} [RecordId ι]

/-! ## Records -/

namespace RecordStore

variable (s : RecordStore ι) (caller : Caller)

variable (hpolicy : s.settings.policy.transactional = true)

include hpolicy

end RecordStore

/-! ## Histories -/

namespace AggregateStore

section Collected

variable {policy : Policy} (hpolicy : policy.transactional = true)

include hpolicy

theorem collect_atomically (fuel : Nat) {stream : EntityStream} (h : stream.Uses policy) :
    Connection.Atomically .read (collect fuel stream) [] := by
  induction fuel generalizing stream with
  | zero => exact .pure .read []
  | succ fuel ih =>
    intro c hidle
    have hreports := EntityStream.pull_reports hpolicy h hidle
    have huses := EntityStream.pull_uses h c
    rw [collect]
    dsimp only
    rcases hp : stream.pull c with ⟨⟨item, rest⟩, c'⟩
    rw [hp] at hreports huses
    cases item with
    | none => exact hreports.answered (fun e heq => by cases heq) []
    | some item =>
      cases item with
      | error e => exact hreports.refused
      | ok entity =>
        have hmore := ih huses c' (by rw [hreports.slot, hidle])
        dsimp only
        rcases hm : collect fuel rest c' with ⟨e' | more, c''⟩ <;> rw [hm] at hmore
        · exact hreports.continued (fun e heq => by cases heq) hmore
        · exact hreports.continued (fun e heq => by cases heq) (hmore.map (entity :: ·))

end Collected

variable (s : AggregateStore ι) (caller : Caller)

variable (hpolicy : s.settings.policy.transactional = true)

include hpolicy

end AggregateStore

/-! ## Operations -/

namespace Operation

/-- What an operation leaves, and what its caller is told of its calls. -/
structure Settled (operation : OperationKind) (planned : Outcome (List Write)) (c : Connection)
    (r : Outcome (Answer ι)) (c' : Connection) : Prop where
  done : ∀ a, r = .ok a → ∃ ws, planned = .ok ws ∧ Store.SameData (c.store.write ws) c'.store
  undone : ∀ e, r = .error e → Store.SameData c.store c'.store
  reported : c.Unfailed c' ∨ Store.SameData c.store c'.store ∧
    ∃ source, .transaction operation source ∈ Answer.reported r

end Operation

end DocumentStore
