import DocumentStore.Access.Stream
import DocumentStore.Proofs.Store.Writes
set_option autoImplicit false

/-!
# Operations as chains of calls

However an operation of a handle reads, collects and writes, the connection that it leaves was reached
by look-ups, queries, puts and deletions one after another.  What each of these keeps, every operation
keeps.
-/

namespace DocumentStore

variable {policy : Policy} {allowed : Write → Prop}

/-- Whether calls under a policy lead from a connection to another; what is written is allowed. -/
inductive Connection.Chain (policy : Policy) (allowed : Write → Prop) (c : Connection) :
    Connection → Prop where
  | refl : Chain policy allowed c c
  | lookup {c' : Connection} (keys : List Key) (label : String) (h : Chain policy allowed c c') :
      Chain policy allowed c (Connection.lookup policy keys label c').2
  | query {c' : Connection} (q : EntityQuery) (h : Chain policy allowed c c') :
      Chain policy allowed c (Connection.runQuery policy q c').2
  | put {c' : Connection} (batch : List Entity) (label : String)
      (hbatch : ∀ w ∈ Write.ofEntities batch, allowed w) (h : Chain policy allowed c c') :
      Chain policy allowed c (Connection.put policy batch label c').2
  | delete {c' : Connection} (keys : List Key) (label : String)
      (hkeys : ∀ w ∈ Write.ofDeleted keys, allowed w) (h : Chain policy allowed c c') :
      Chain policy allowed c (Connection.delete policy keys label c').2

namespace Connection

theorem Chain.trans {c c' c'' : Connection} (h : Chain policy allowed c c')
    (h' : Chain policy allowed c' c'') : Chain policy allowed c c'' := by
  induction h' with
  | refl => exact h
  | lookup keys label _ ih => exact ih.lookup keys label
  | query q _ ih => exact ih.query q
  | put batch label hbatch _ ih => exact ih.put batch label hbatch
  | delete keys label hkeys _ ih => exact ih.delete keys label hkeys

/-- An action whose calls form a chain. -/
def Chains {α : Type} (policy : Policy) (allowed : Write → Prop) (x : Action Connection α) : Prop :=
  ∀ c, Chain policy allowed c (x c).2

namespace Chains

variable {α β : Type}

theorem pure (a : α) : Chains policy allowed (Pure.pure a) := fun _ => .refl

theorem bind {x : Action Connection α} {f : α → Action Connection β}
    (hx : Chains policy allowed x) (hf : ∀ a, Chains policy allowed (f a)) :
    Chains policy allowed (x >>= f) := by
  intro c
  have hfirst := hx c
  rw [Action.bind_apply]
  rcases hr : x c with ⟨e | a, c'⟩ <;> rw [hr] at hfirst
  · exact hfirst
  · exact hfirst.trans (hf a c')

theorem lookup (keys : List Key) (label : String) :
    Chains policy allowed (Connection.lookup policy keys label) := fun _ => .lookup keys label .refl

end Chains

end Connection

/-! ## Walks -/

namespace Walk

theorem takeAtHand_policy (w : Walk) : w.takeAtHand.rest.policy = w.policy := by
  unfold takeAtHand
  split <;> rfl

/-- A pull gives what is at hand, ends the walk, or asks for a page that is refused or arrives. -/
theorem pull_cases (w : Walk) (c : Connection) :
    (w.atHand ≠ [] ∧ w.pull c = (w.takeAtHand, c)) ∨
      (w.atHand = [] ∧ w.isOver = true ∧ w.pull c = (⟨none, w.finish⟩, c)) ∨
      w.atHand = [] ∧ w.isOver = false ∧ ∃ r c',
        Connection.runQuery w.policy { w.query with limit := some w.nextLimit } c = (r, c') ∧
          ((∃ e, r = .error e ∧ w.pull c = (⟨some (.error e), w.finish⟩, c')) ∨
            ∃ page, r = .ok page ∧ w.pull c = ((w.arrive page).takeAtHand, c')) := by
  unfold pull
  cases w.atHand with
  | cons e rest => exact .inl ⟨List.cons_ne_nil e rest, rfl⟩
  | nil =>
    dsimp only
    split
    · next hover => exact .inr (.inl ⟨rfl, hover, rfl⟩)
    · next hover =>
      refine .inr (.inr ⟨rfl, Bool.eq_false_iff.mpr hover, ?_⟩)
      rcases Connection.runQuery w.policy { w.query with limit := some w.nextLimit } c with
        ⟨e | page, c'⟩
      · exact ⟨_, c', rfl, .inl ⟨e, rfl, rfl⟩⟩
      · exact ⟨_, c', rfl, .inr ⟨page, rfl, rfl⟩⟩

variable (allowed) in
/-- A pull makes at most one query. -/
theorem pull_chain {w : Walk} (hw : w.policy = policy) (c : Connection) :
    Connection.Chain policy allowed c (w.pull c).2 ∧ (w.pull c).1.rest.policy = policy := by
  subst hw
  have hquery : Connection.Chain w.policy allowed c _ :=
    .query { w.query with limit := some w.nextLimit } .refl
  rcases w.pull_cases c with ⟨-, hp⟩ | ⟨-, -, hp⟩ | ⟨-, -, r, c', hr, hfetched⟩
  · rw [hp]
    exact ⟨.refl, w.takeAtHand_policy⟩
  · rw [hp]
    exact ⟨.refl, rfl⟩
  · rw [hr] at hquery
    rcases hfetched with ⟨e, -, hp⟩ | ⟨page, -, hp⟩ <;> rw [hp]
    · exact ⟨hquery, rfl⟩
    · exact ⟨hquery, takeAtHand_policy _⟩

theorem pull_policy (w : Walk) (c : Connection) : (w.pull c).1.rest.policy = w.policy :=
  (pull_chain (fun _ => True) rfl c).2

theorem collectFrom_chains (fuel : Nat) {w : Walk} (hw : w.policy = policy) :
    Connection.Chains policy allowed (collectFrom fuel w) := by
  induction fuel generalizing w with
  | zero => exact .pure []
  | succ fuel ih =>
    intro c
    obtain ⟨hpull, hrest⟩ := pull_chain allowed hw c
    rw [collectFrom]
    dsimp only
    rcases hp : w.pull c with ⟨⟨item, w'⟩, c'⟩
    rw [hp] at hpull hrest
    cases item with
    | none => exact hpull
    | some item =>
      cases item with
      | error e => exact hpull
      | ok e =>
        have hmore := hpull.trans (ih (w := w') hrest c')
        dsimp only
        rcases hm : collectFrom fuel w' c' with ⟨e' | more, c''⟩ <;> rw [hm] at hmore
        · exact hmore
        · exact hmore

end Walk

/-! ## Streams -/

namespace EntityStream

/-- Whether every call of a stream is made under a policy. -/
def Uses (policy : Policy) : EntityStream → Prop
  | .walk w => w.policy = policy
  | .sifted _ _ walks => ∀ w ∈ walks, w.policy = policy
  | .merged walks _ _ => ∀ w ∈ walks, w.policy = policy
  | .found p _ _ _ _ _ => p = policy
  | _ => True

theorem collectWalks_chains {walks : List Walk} (h : ∀ w ∈ walks, w.policy = policy) :
    Connection.Chains policy allowed (collectWalks walks) := by
  induction walks with
  | nil => exact .pure []
  | cons w rest ih =>
    have hcollect : Connection.Chains policy allowed w.collect := fun c =>
      Walk.collectFrom_chains _ (h w (List.mem_cons_self ..)) c
    exact hcollect.bind fun _ => (ih fun w hw => h w (List.mem_cons_of_mem _ hw)).bind
      fun _ => .pure _

theorem pullCollected_chain {x : Action Connection (List Entity)}
    (h : Connection.Chains policy allowed x) (c : Connection) :
    Connection.Chain policy allowed c (pullCollected x c).2 ∧
      (pullCollected x c).1.rest.Uses policy := by
  have hx := h c
  unfold pullCollected
  rcases hr : x c with ⟨e | items, c'⟩ <;> rw [hr] at hx
  · exact ⟨hx, trivial⟩
  · refine ⟨hx, ?_⟩
    cases items <;> exact trivial

theorem pullSifted_chain (sieve : Sieve) (fuel : Nat) (seen : List Mark) {walks : List Walk}
    (h : ∀ w ∈ walks, w.policy = policy) (c : Connection) :
    Connection.Chain policy allowed c (pullSifted sieve fuel seen walks c).2 ∧
      (pullSifted sieve fuel seen walks c).1.rest.Uses policy := by
  induction fuel generalizing seen walks c with
  | zero => exact ⟨.refl, trivial⟩
  | succ fuel ih =>
    cases walks with
    | nil => exact ⟨.refl, trivial⟩
    | cons w walks =>
      have hwalks : ∀ w ∈ walks, w.policy = policy := fun w hw => h w (List.mem_cons_of_mem _ hw)
      obtain ⟨hpull, hrest⟩ := Walk.pull_chain allowed (h w (List.mem_cons_self ..)) c
      unfold pullSifted
      rcases hp : w.pull c with ⟨⟨item, w'⟩, c'⟩
      rw [hp] at hpull hrest
      have hall : ∀ w ∈ w' :: walks, w.policy = policy := by
        intro v hv
        rcases List.mem_cons.mp hv with rfl | hv
        · exact hrest
        · exact hwalks v hv
      cases item with
      | none =>
        obtain ⟨hmore, huses⟩ := ih seen hwalks c'
        exact ⟨hpull.trans hmore, huses⟩
      | some item =>
        cases item with
        | error e => exact ⟨hpull, hall⟩
        | ok e =>
          obtain ⟨hmore, huses⟩ := ih seen hall c'
          dsimp only
          split
          · exact ⟨hpull.trans hmore, huses⟩
          · split
            · exact ⟨hpull.trans hmore, huses⟩
            · exact ⟨hpull, hall⟩

variable (allowed) in
/-- A pull of a stream makes look-ups and queries only, and leaves a stream of the same policy. -/
theorem pull_chain {s : EntityStream} (h : s.Uses policy) (c : Connection) :
    Connection.Chain policy allowed c (s.pull c).2 ∧ (s.pull c).1.rest.Uses policy := by
  cases s with
  | ended => exact ⟨.refl, trivial⟩
  | failing e => exact ⟨.refl, trivial⟩
  | walk w =>
    obtain ⟨hpull, hrest⟩ := Walk.pull_chain allowed h c
    rw [pull]
    rcases hp : w.pull c with ⟨⟨_ | item, w'⟩, c'⟩ <;> rw [hp] at hpull hrest
    · exact ⟨hpull, trivial⟩
    · exact ⟨hpull, hrest⟩
  | sifted sieve seen walks => exact pullSifted_chain sieve _ seen h c
  | merged walks order limit =>
    exact pullCollected_chain ((collectWalks_chains h).bind fun _ => .pure _) c
  | found p label keys filters order limit =>
    obtain rfl : p = policy := h
    exact pullCollected_chain ((Connection.Chains.lookup keys label).bind fun _ => .pure _) c
  | ready items =>
    refine ⟨.refl, ?_⟩
    cases items <;> exact trivial

theorem pull_uses {s : EntityStream} (h : s.Uses policy) (c : Connection) :
    (s.pull c).1.rest.Uses policy :=
  (pull_chain (fun _ => True) h c).2

end EntityStream

theorem ItemStream.take_chain {α : Type} (count : Nat) {s : ItemStream α}
    (h : s.source.Uses policy) (c : Connection) :
    Connection.Chain policy allowed c (s.take count c).2.2 := by
  induction count generalizing s c with
  | zero => exact .refl
  | succ count ih =>
    obtain ⟨hpull, huses⟩ := EntityStream.pull_chain allowed h c
    unfold take
    rcases hp : s.source.pull c with ⟨⟨_ | item, rest⟩, c'⟩ <;> rw [hp] at hpull huses
    · exact hpull
    · exact hpull.trans (ih (s := { s with source := rest }) huses c')

end DocumentStore
