import DocumentStore.Proofs.Access.Atomic
import DocumentStore.Proofs.Access.Chains
set_option autoImplicit false

/-!
# Failures that streams report

Every page of a stream is a query of its own.  Under the transactional policy a pull writes nothing,
and if one of its calls fails, its item says so.  A reader of many items then sees every failure, and
one that collects them stops at the first.
-/

namespace DocumentStore

/-- What a pull leaves on a connection. -/
structure PullReports (c : Connection) (item : Option (Outcome Entity)) (c' : Connection) : Prop where
  closed : c'.closed = c.closed
  slot : c'.slot = c.slot
  sameData : Store.SameData c.store c'.store
  reported : Connection.Unfailed c c' ∨ ∃ source, item = some (.error (.transaction .read source))

namespace PullReports

variable {c c' c'' : Connection} {item item' : Option (Outcome Entity)}

theorem refl (c : Connection) (item : Option (Outcome Entity)) : PullReports c item c :=
  ⟨rfl, rfl, .refl _, .inl (.refl c)⟩

theorem unfailed (h : PullReports c item c') (hitem : ∀ e, item ≠ some (.error e)) :
    Connection.Unfailed c c' := by
  rcases h.reported with hquiet | ⟨source, heq⟩
  · exact hquiet
  · exact absurd heq (hitem _)

/-- A pull after one that gave no failure. -/
theorem after (h' : PullReports c' item' c'') (h : PullReports c item c')
    (hitem : ∀ e, item ≠ some (.error e)) : PullReports c item' c'' where
  closed := h'.closed.trans h.closed
  slot := h'.slot.trans h.slot
  sameData := h.sameData.trans h'.sameData
  reported := h'.reported.imp_left (h.unfailed hitem).trans

/-- A read that gave its answer, or its failure as the item. -/
theorem of_allOrNothing {α : Type} {r : Outcome α}
    (h : Connection.AllOrNothing .read [] c r c')
    (hitem : ∀ e, r = .error e → item = some (.error e)) : PullReports c item c' where
  closed := h.closed
  slot := h.slot
  sameData := by
    cases r with
    | ok a => exact (h.done a rfl).1
    | error e => exact (h.undone e rfl).1
  reported := by
    cases r with
    | ok a => exact .inl (h.done a rfl).2
    | error e =>
      rcases (h.undone e rfl).2 with hquiet | ⟨source, hsource⟩
      · exact .inl hquiet
      · exact .inr ⟨source, by rw [hitem e rfl, hsource]⟩

section Collected

variable {α : Type}

theorem answered (h : PullReports c item c') (hitem : ∀ e, item ≠ some (.error e)) (a : α) :
    Connection.AllOrNothing .read [] c (.ok a) c' :=
  ⟨h.closed, h.slot, fun _ _ => ⟨h.sameData, h.unfailed hitem⟩, fun _ he => by cases he⟩

theorem refused {e : StorageError} (h : PullReports c (some (.error e)) c') :
    Connection.AllOrNothing (α := α) .read [] c (.error e) c' := by
  refine ⟨h.closed, h.slot, fun _ hok => (by cases hok), fun e' he => ⟨h.sameData, ?_⟩⟩
  obtain rfl := Except.error.inj he
  refine h.reported.imp_right fun ⟨source, heq⟩ => ⟨source, ?_⟩
  exact Except.error.inj (Option.some.inj heq)

/-- What was read after a pull that gave no failure. -/
theorem continued {r : Outcome α} (h : PullReports c item c') (hitem : ∀ e, item ≠ some (.error e))
    (h' : Connection.AllOrNothing .read [] c' r c'') :
    Connection.AllOrNothing .read [] c r c'' :=
  h'.after h.closed h.slot h.sameData (h.unfailed hitem)

end Collected

end PullReports

/-! ## Walks -/

namespace Walk

/-- A pull of a walk reports the failure of its query. -/
theorem pull_reports {w : Walk} (hpolicy : w.policy.transactional = true) {c : Connection}
    (hidle : c.slot.isActive = false) : PullReports c (w.pull c).1.item (w.pull c).2 := by
  have hquery := Connection.runQuery_atomically hpolicy
    { w.query with limit := some w.nextLimit } c hidle
  rcases w.pull_cases c with ⟨-, hp⟩ | ⟨-, -, hp⟩ | ⟨-, -, r, c', hr, hfetched⟩
  · rw [hp]
    exact .refl c _
  · rw [hp]
    exact .refl c _
  · rw [hr] at hquery
    rcases hfetched with ⟨e, rfl, hp⟩ | ⟨page, rfl, hp⟩ <;> rw [hp]
    · exact .of_allOrNothing hquery (fun _ he => by cases he; rfl)
    · exact .of_allOrNothing hquery (fun _ he => by cases he)

theorem collectFrom_atomically (fuel : Nat) {w : Walk} (hpolicy : w.policy.transactional = true) :
    Connection.Atomically .read (collectFrom fuel w) [] := by
  induction fuel generalizing w with
  | zero => exact .pure .read []
  | succ fuel ih =>
    intro c hidle
    have hreports := pull_reports hpolicy hidle
    have hrest := w.pull_policy c
    rw [collectFrom]
    dsimp only
    rcases hp : w.pull c with ⟨⟨item, w'⟩, c'⟩
    rw [hp] at hreports hrest
    cases item with
    | none => exact hreports.answered (fun e heq => by cases heq) []
    | some item =>
      cases item with
      | error e => exact hreports.refused
      | ok e =>
        have hmore := ih (w := w') (by rw [hrest, hpolicy]) c' (by rw [hreports.slot, hidle])
        dsimp only
        rcases hm : collectFrom fuel w' c' with ⟨e' | more, c''⟩ <;> rw [hm] at hmore
        · exact hreports.continued (fun e heq => by cases heq) hmore
        · exact hreports.continued (fun e heq => by cases heq) (hmore.map (e :: ·))

theorem collect_atomically {w : Walk} (hpolicy : w.policy.transactional = true) :
    Connection.Atomically .read w.collect [] :=
  fun c hidle => collectFrom_atomically (w.bound c.store.size + 1) hpolicy c hidle

end Walk

/-! ## Streams -/

namespace EntityStream

section Transactional

variable {policy : Policy} (hpolicy : policy.transactional = true)

include hpolicy

theorem collectWalks_atomically {walks : List Walk} (h : ∀ w ∈ walks, w.policy = policy) :
    Connection.Atomically .read (collectWalks walks) [] := by
  induction walks with
  | nil => exact .pure .read []
  | cons w rest ih =>
    have hw : w.policy.transactional = true := by rw [h w (List.mem_cons_self ..), hpolicy]
    have hrest := ih fun w hw => h w (List.mem_cons_of_mem _ hw)
    exact (Walk.collect_atomically hw).bind fun _ => hrest.bind fun _ => .pure .read _

theorem mergeWalks_atomically {walks : List Walk} (h : ∀ w ∈ walks, w.policy = policy)
    (order : List SortKey) (limit : Option Nat) :
    Connection.Atomically .read (mergeWalks walks order limit) [] :=
  (collectWalks_atomically hpolicy h).bind fun _ => .pure .read _

theorem lookUp_atomically (label : String) (keys : List Key) (filters : List ConjunctiveFilter)
    (order : List SortKey) (limit : Option Nat) :
    Connection.Atomically .read (lookUp policy label keys filters order limit) [] :=
  (Connection.lookup_atomically hpolicy keys label).bind fun _ => .pure .read _

omit hpolicy in
theorem pullCollected_reports {x : Action Connection (List Entity)}
    (h : Connection.Atomically .read x []) {c : Connection} (hidle : c.slot.isActive = false) :
    PullReports c (pullCollected x c).1.item (pullCollected x c).2 := by
  have hx := h c hidle
  unfold pullCollected
  rcases hr : x c with ⟨e | items, c'⟩ <;> rw [hr] at hx
  · exact .of_allOrNothing hx (fun _ he => by cases he; rfl)
  · exact .of_allOrNothing hx (fun _ he => by cases he)

theorem pullSifted_reports (sieve : Sieve) (fuel : Nat) (seen : List Mark) {walks : List Walk}
    (h : ∀ w ∈ walks, w.policy = policy) {c : Connection} (hidle : c.slot.isActive = false) :
    PullReports c (pullSifted sieve fuel seen walks c).1.item
      (pullSifted sieve fuel seen walks c).2 := by
  induction fuel generalizing seen walks c with
  | zero => exact .refl c _
  | succ fuel ih =>
    cases walks with
    | nil => exact .refl c _
    | cons w walks =>
      have hw : w.policy = policy := h w (List.mem_cons_self ..)
      have hwalks : ∀ w ∈ walks, w.policy = policy := fun w hw => h w (List.mem_cons_of_mem _ hw)
      have hreports := Walk.pull_reports (by rw [hw, hpolicy]) hidle
      have hrest := w.pull_policy c
      unfold pullSifted
      rcases hp : w.pull c with ⟨⟨item, w'⟩, c'⟩
      rw [hp] at hreports hrest
      have hidle' : c'.slot.isActive = false := by rw [hreports.slot, hidle]
      have hall : ∀ w ∈ w' :: walks, w.policy = policy := by
        intro v hv
        rcases List.mem_cons.mp hv with rfl | hv
        · exact hrest.trans hw
        · exact hwalks v hv
      cases item with
      | none =>
        exact (ih seen hwalks hidle').after hreports (fun e heq => by cases heq)
      | some item =>
        cases item with
        | error e => exact hreports
        | ok e =>
          have hskip := (ih seen hall hidle').after hreports (fun e heq => by cases heq)
          dsimp only
          split
          · exact hskip
          · split
            · exact hskip
            · exact hreports

/-- A pull of a stream reports the failures of its calls. -/
theorem pull_reports {s : EntityStream} (h : s.Uses policy) {c : Connection}
    (hidle : c.slot.isActive = false) : PullReports c (s.pull c).1.item (s.pull c).2 := by
  cases s with
  | ended => exact .refl c _
  | failing e => exact .refl c _
  | walk w =>
    have hw : w.policy = policy := h
    have hreports := Walk.pull_reports (w := w) (by rw [hw, hpolicy]) hidle
    rw [pull]
    rcases hp : w.pull c with ⟨⟨_ | item, w'⟩, c'⟩ <;> rw [hp] at hreports
    · exact hreports
    · exact hreports
  | sifted sieve seen walks => exact pullSifted_reports hpolicy sieve _ seen h hidle
  | merged walks order limit =>
    exact pullCollected_reports (mergeWalks_atomically hpolicy h order limit) hidle
  | found p label keys filters order limit =>
    obtain rfl : p = policy := h
    exact pullCollected_reports (lookUp_atomically hpolicy label keys filters order limit) hidle
  | ready items => exact .refl c _

end Transactional

end EntityStream

namespace ItemStream

end ItemStream

end DocumentStore
