import DocumentStore.Access.Context
import DocumentStore.Proofs.Access.Wrote
import DocumentStore.Proofs.Tenancy.Known
set_option autoImplicit false

/-!
# What stands behind a known namespace

An operation that puts entities makes the index know their namespace as soon as its calls have
succeeded.  The namespace then has data: in the store, or, if the handle has an open transaction, among
what that transaction has staged.
-/

namespace DocumentStore

/-- Whether a transaction is to put data into a namespace. -/
def Transaction.Puts (t : Transaction) (space : Namespace) : Prop :=
  ∃ k p, t.staged.get? k = some (some p) ∧ k.space = space

/-- Whether a namespace has data, in the store or staged in the open transaction. -/
def Connection.Backs (c : Connection) (space : Namespace) : Prop :=
  space ∈ c.store.namespaces ∨ ∃ t, c.slot = .active t ∧ t.Puts space

/-! ## Puts -/

-- of the writes for one key the last counts, but here each of them is a put
theorem Write.get?_foldl_ofEntities {batch : List Entity} {k : Key}
    (last : SortedMap Key (Option Properties))
    (h : (∃ p, last.get? k = some (some p)) ∨ ∃ e ∈ batch, e.key = k) :
    ∃ p, ((ofEntities batch).foldl (fun m w => m.insert w.1 w.2) last).get? k = some (some p) := by
  induction batch generalizing last with
  | nil =>
    rcases h with h | ⟨e, he, -⟩
    · exact h
    · cases he
  | cons b rest ih =>
    refine ih (last.insert b.key (some b.properties)) ?_
    rw [SortedMap.get?_insert]
    by_cases hkey : k = b.key
    · exact .inl ⟨b.properties, if_pos hkey⟩
    · rw [if_neg hkey]
      rcases h with h | ⟨e, he, rfl⟩
      · exact .inl h
      · rcases List.mem_cons.mp he with rfl | he
        · exact absurd rfl hkey
        · exact .inr ⟨e, he, rfl⟩

theorem Staging.puts_stageAll {batch : List Entity} {e : Entity} (he : e ∈ batch) (t : Transaction) :
    (stageAll t (Write.ofEntities batch)).Puts e.key.space := by
  obtain ⟨p, hp⟩ := Write.get?_foldl_ofEntities t.staged (.inr ⟨e, he, rfl⟩)
  exact ⟨e.key, p, (congrArg (·.get? e.key) (staged_stageAll t _)).trans hp, rfl⟩

theorem Store.mem_namespaces_write {batch : List Entity} {e : Entity} (he : e ∈ batch) (s : Store) :
    e.key.space ∈ (s.write (Write.ofEntities batch)).namespaces := by
  obtain ⟨p, hp⟩ := Write.get?_foldl_ofEntities ∅ (.inr ⟨e, he, rfl⟩)
  refine mem_namespaces.mpr ⟨e.key, p, ?_, rfl⟩
  rw [write, Write.get?_applyAll, SortedMap.ofList, hp]
  rfl

/-- A finished transaction refuses the first call of a put. -/
theorem Session.put_finished {limits : BatchLimits} {batch : List Entity} {e : Entity}
    (he : e ∈ batch) {s : Session} {t : Transaction} (ht : s.transaction = some t)
    (hfinished : t.finished = true) : ∃ error s', put limits batch s = (.error error, s') := by
  cases batch with
  | nil => cases he
  | cons b rest =>
    have hcall : Staging.put (b :: rest.take (limits.write - 1)) ⟨s.store, t⟩ =
        (.error .transactionFinished, ⟨s.store, t⟩) :=
      Action.bind_error (Staging.ensureActive_finished hfinished)
    rw [put, chunks, putChunks, Action.bind_apply, call, ht]
    dsimp only
    rw [hcall]
    exact ⟨_, _, rfl⟩

theorem Connection.executeIn_put_backs {limits : BatchLimits} {batch : List Entity} {e : Entity}
    (he : e ∈ batch) {c c' : Connection} {t : Transaction}
    (h : executeIn .write t (Session.put limits batch) c = (.ok (), c')) :
    c'.Backs e.key.space := by
  unfold executeIn at h
  cases hfinished : t.finished with
  | true =>
    have hrefused : ∃ error s, Session.put limits batch (c.session (some t)) = (.error error, s) :=
      Session.put_finished he rfl hfinished
    obtain ⟨error, s, hput⟩ := hrefused
    rw [hput] at h
    cases h
  | false =>
    have hunfinished : (c.session (some t)).Unfinished := .of_some rfl hfinished
    obtain ⟨⟨done, -, ⟨ht', -⟩, hdone⟩, -⟩ := Session.put_performs limits batch _ hunfinished
    rcases hr : Session.put limits batch (c.session (some t)) with ⟨error | _, s⟩ <;>
      rw [hr] at h ht' hdone
    · cases h
    · obtain rfl := hdone () rfl
      cases h
      refine .inr ⟨_, congrArg (fun t' => Slot.active (Option.getD t' t)) ht', ?_⟩
      exact Staging.puts_stageAll he t

/-- A put that succeeded has left data of the entities' namespace. -/
theorem Connection.put_backs {policy : Policy} {batch : List Entity} {e : Entity} (he : e ∈ batch)
    {label : String} {c c' : Connection} (h : put policy batch label c = (.ok (), c')) :
    c'.Backs e.key.space := by
  cases hactive : c.slot.isActive with
  | false =>
    obtain ⟨hwrote, -⟩ := wrote_of_execute_ok (Session.put_performs policy.limits batch) hactive h
    refine .inl ?_
    rw [Store.namespaces_congr hwrote.sameData.documents]
    exact Store.mem_namespaces_write he c.store
  | true =>
    rw [put, execute] at h
    split at h
    · cases h
    · split at h
      · exact executeIn_put_backs he h
      · next hidle =>
        cases hslot : c.slot with
        | active t => exact absurd hslot (hidle t)
        | idle | committed | rolledBack =>
          rw [hslot] at hactive
          cases hactive

/-! ## Actions of handles -/

namespace Context

variable {α β : Type}

/-- An action that does not change what the index knows. -/
def LeavesIndex (x : Action Context α) : Prop := ∀ s, (x s).2.index = s.index

namespace LeavesIndex

theorem pure (a : α) : LeavesIndex (Pure.pure a) := fun _ => rfl

theorem ofOutcome (answer : Outcome α) : LeavesIndex (Action.ofOutcome answer) := fun _ => rfl

theorem onConnection (x : Action Connection α) : LeavesIndex (onConnection x) := fun _ => rfl

theorem bind {x : Action Context α} {f : α → Action Context β} (hx : LeavesIndex x)
    (hf : ∀ a, LeavesIndex (f a)) : LeavesIndex (x >>= f) := by
  intro s
  have hfirst := hx s
  rw [Action.bind_apply]
  rcases hr : x s with ⟨e | a, s'⟩ <;> rw [hr] at hfirst
  · exact hfirst
  · exact (hf a s').trans hfirst

theorem currentKeys (settings : HandleSettings) (caller : Caller) (kind : Kind) :
    LeavesIndex (currentKeys settings caller kind) :=
  (ofOutcome _).bind fun _ _ => rfl

end LeavesIndex

/-- An action after which the index knows no more namespaces than before and those that have data. -/
def Registers (x : Action Context α) : Prop :=
  ∀ s space, (x s).2.index.knows space = true →
    s.index.knows space = true ∨ (x s).2.connection.Backs space

namespace Registers

theorem of_leavesIndex {x : Action Context α} (h : LeavesIndex x) : Registers x :=
  fun s _ hknows => .inl (h s ▸ hknows)

/-- What comes after an action that leaves the index is known to come after its answer. -/
theorem prepare {x : Action Context α} {f : α → Action Context β} (hx : LeavesIndex x)
    (hf : ∀ s a s', x s = (.ok a, s') → Registers (f a)) : Registers (x >>= f) := by
  intro s space hknows
  have hfirst := hx s
  rw [Action.bind_apply] at hknows ⊢
  rcases hr : x s with ⟨e | a, s'⟩ <;> rw [hr] at hknows hfirst
  · exact .inl (hfirst ▸ hknows)
  · rcases hf s a s' hr s' space hknows with hknown | hbacks
    · exact .inl (hfirst ▸ hknown)
    · exact .inr hbacks

theorem answer {x : Action Context α} (h : Registers x) (f : α → β) :
    Registers (x >>= fun a => pure (f a)) := by
  intro s space hknows
  have hfirst := h s space
  rw [Action.bind_apply] at hknows ⊢
  rcases hr : x s with ⟨e | a, s'⟩ <;> rw [hr] at hknows hfirst
  · exact hfirst hknows
  · exact hfirst hknows

/-- The namespace of a put is remembered after the put. -/
theorem put {policy : Policy} {batch : List Entity} {label : String} {space : Namespace}
    (hbatch : ∃ e ∈ batch, e.key.space = space) :
    Registers (do
      onConnection (Connection.put policy batch label)
      keepNamespace space) := by
  obtain ⟨e, he, rfl⟩ := hbatch
  intro s space hknows
  rw [Action.bind_apply, Context.onConnection, Action.onPart] at hknows ⊢
  rcases hr : Connection.put policy batch label s.connection with ⟨error | _, c⟩ <;>
    rw [hr] at hknows
  · exact .inl hknows
  · rcases (NamespaceIndex.knows_keep ..).mp hknows with rfl | hknown
    · exact .inr (Connection.put_backs he hr)
    · exact .inl hknown

end Registers

end Context

end DocumentStore
