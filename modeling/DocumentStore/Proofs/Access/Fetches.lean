import DocumentStore.Proofs.Access.Counts
import DocumentStore.Proofs.Access.Streams
set_option autoImplicit false

/-!
# How many pages are fetched

A page is fetched only when an entity is pulled and none is at hand, and it is as large as the page
size, the store's page limit and the entities to come allow.  After the first page a walk knows whether
it is over: `Walk.Settled` says that with nothing beyond the entities at hand no page is asked for.  So
`n` pulls take as many pages as `n` entities fill, and the first pull always takes one unless the
query's limit is zero.
-/

namespace DocumentStore

namespace Walk

variable {store : Store} {c : Connection} {w : Walk} {rest : List Entity}

/-- The most entities of a page that the walk fetches. -/
def pageRoom (store : Store) (w : Walk) : Nat := min w.pageSize store.pageLimit

/-- A walk and its entities to come that is over once they are all at hand. -/
structure Settled (store : Store) (w : Walk) (rest : List Entity) : Prop where
  pending : Pending store w rest
  ends : rest.length ≤ w.atHand.length → w.isOver = true

theorem length_beyond (store : Store) (offset : Nat) (hdone : w.done = false) :
    (w.beyond store offset).length =
      match w.remaining with
      | some n => min n ((store.results w.query).length - offset)
      | none => (store.results w.query).length - offset := by
  rw [beyond, if_neg (by simp [hdone])]
  cases w.remaining <;> simp [Store.cut]

namespace Settled

/-- A walk that is over has nothing to come. -/
theorem of_isOver (h : Pending store w rest) (hover : w.isOver = true) : Settled store w rest :=
  ⟨h, fun _ => hover⟩

theorem takeAtHand (h : Settled store w rest) (hserves : Connection.Serves store c)
    (hend : w.atHand = [] → w.done = true) : Settled store w.takeAtHand.rest rest.tail := by
  refine ⟨(h.pending.takeAtHand hserves hend).pending, fun hall => ?_⟩
  unfold Walk.takeAtHand at hall ⊢
  cases hat : w.atHand with
  | nil => simp [isOver, finish]
  | cons e more =>
    rw [hat] at hall
    have hover := h.ends
    rw [hat, List.length_cons] at hover
    exact hover (by rw [List.length_tail] at hall; dsimp only at hall; omega)

end Settled

theorem length_takeAtHand (w : Walk) : w.takeAtHand.rest.atHand.length = w.atHand.length - 1 := by
  unfold Walk.takeAtHand
  cases hat : w.atHand <;> simp [finish]

theorem pageSize_takeAtHand (w : Walk) : w.takeAtHand.rest.pageSize = w.pageSize := by
  unfold Walk.takeAtHand
  cases w.atHand <;> rfl

/-- A page has as many of the entities to come as there is room for, and settles the walk. -/
theorem arrive_settled (hstore : store.WellSized) (hpage : 0 < w.pageSize) (hover : w.isOver = false)
    (offset : Nat) :
    (store.page { w.query with limit := some w.nextLimit } offset).entities.length =
        min (w.pageRoom store) (w.beyond store offset).length ∧
      Settled store (w.arrive (store.page { w.query with limit := some w.nextLimit } offset))
        (w.beyond store offset) := by
  have hpending := Pending.arrive hstore hpage hover offset
  simp only [isOver, Bool.or_eq_false_iff, beq_eq_false_iff_ne] at hover
  obtain ⟨hdone, hlimit⟩ := hover
  have hlength := length_beyond store offset hdone
  have hfetched := store.length_page_entities w.query offset w.nextLimit
  have hstart : store.pageStart w.query offset = min offset (store.results w.query).length := rfl
  have hcount : store.pageCount w.query offset w.nextLimit =
      min w.nextLimit (min store.pageLimit
        ((store.results w.query).length - store.pageStart w.query offset)) := rfl
  have hroom : store.pageCount w.query offset w.nextLimit =
      min (w.pageRoom store) (w.beyond store offset).length := by
    have hahead : (store.results w.query).length - min offset (store.results w.query).length =
        (store.results w.query).length - offset := by
      omega
    rw [hcount, hlength, pageRoom, hstart, nextLimit, hahead]
    cases w.remaining with
    | none => exact (Nat.min_assoc ..).symm
    | some n =>
      dsimp only
      ac_rfl
  refine ⟨hfetched.trans hroom, hpending, fun hall => ?_⟩
  have hall' : (w.beyond store offset).length ≤ store.pageCount w.query offset w.nextLimit :=
    Nat.le_trans hall (Nat.le_of_eq hfetched)
  simp only [isOver, Walk.arrive, Bool.or_eq_true, beq_iff_eq, hfetched, Store.page_more,
    Store.page_endCursor, Bool.not_eq_true', decide_eq_false_iff_not, Option.isNone_some,
    Bool.false_eq_true, or_false]
  by_cases hlast : store.pageStart w.query offset + store.pageCount w.query offset w.nextLimit <
      (store.results w.query).length
  · -- more results follow, so that the page has used up the limit
    right
    generalize store.pageCount w.query offset w.nextLimit = fetched at *
    rw [hlength] at hall'
    unfold nextLimit
    cases hremaining : w.remaining with
    | none =>
      rw [hremaining] at hall'
      dsimp only at hall'
      omega
    | some n =>
      rw [hremaining] at hall'
      dsimp only [Option.map_some] at hall' ⊢
      omega
  · exact .inl (.inl hlast)

/-! ## Pulls -/

/-- What a walk leaves after some pulls, with the connection. -/
def pulled : Nat → Walk → Connection → Walk × Connection
  | 0, w, c => (w, c)
  | count + 1, w, c => pulled count (w.pull c).1.rest (w.pull c).2

/-- A walk that is over asks for nothing more. -/
theorem pulled_of_isOver (count : Nat) (hat : w.atHand = []) (hover : w.isOver = true) :
    (w.pulled count c).2 = c := by
  induction count generalizing w with
  | zero => rfl
  | succ count ih =>
    have hpull : w.pull c = (⟨none, w.finish⟩, c) := by
      rw [pull, hat]
      exact if_pos hover
    rw [pulled, hpull]
    exact ih rfl (by simp [isOver, finish])

/-- A pull for which a page is fetched. -/
theorem Pending.pull_fetches (h : Pending store w rest) (hstore : store.WellSized)
    (hserves : Connection.Serves store c) (hat : w.atHand = []) (hover : w.isOver = false) :
    Settled store (w.pull c).1.rest rest.tail ∧
      (w.pull c).1.rest.atHand.length = min (w.pageRoom store) rest.length - 1 ∧
      (w.pull c).1.rest.pageRoom store = w.pageRoom store ∧
      (w.pull c).2.store.calls = c.store.calls.bump .query := by
  obtain ⟨offset, hstart, hrest⟩ := h.place
  rw [hat, List.nil_append] at hrest
  subst hrest
  have hcalls := hserves.calls_runQuery w.policy
    (q := { w.query with limit := some w.nextLimit }) hstart
  obtain ⟨c', hquery, hserves'⟩ := hserves.runQuery w.policy
    (q := { w.query with limit := some w.nextLimit }) hstart
  have hpull : w.pull c =
      ((w.arrive (store.page { w.query with limit := some w.nextLimit } offset)).takeAtHand, c') := by
    rw [Walk.pull, hat]
    dsimp only
    rw [if_neg (by simp [hover]), hquery]
  obtain ⟨hlength, hsettled⟩ := arrive_settled hstore h.pageSize hover offset
  rw [hquery] at hcalls
  rw [hpull]
  refine ⟨hsettled.takeAtHand hserves' fun hnone => ?_, ?_, ?_, hcalls⟩
  · simp only [Walk.arrive] at hnone ⊢
    rw [hnone]
    simp
  · rw [length_takeAtHand, ← hlength]
    rfl
  · rw [pageRoom, pageSize_takeAtHand]
    rfl

/-- Pulls from a walk that is over once everything is at hand take as many pages as the entities that
are pulled and not at hand fill. -/
theorem Settled.calls_pulled (h : Settled store w rest) (hstore : store.WellSized)
    (hserves : Connection.Serves store c) (count : Nat) :
    (w.pulled count c).2.store.calls = c.store.calls.bumps .query
      ((min count rest.length - w.atHand.length) ⌈/⌉ w.pageRoom store) := by
  have hroom : 0 < w.pageRoom store := Nat.lt_min.mpr ⟨h.pending.pageSize, hstore.pageLimit⟩
  induction count generalizing w rest c with
  | zero => simp [pulled]
  | succ count ih =>
    have hserves' := (h.pending.pull hstore hserves).serves
    cases hat : w.atHand with
    | cons e more =>
      have hpull : w.pull c = (w.takeAtHand, c) := by rw [Walk.pull, hat]
      have hsettled := h.takeAtHand hserves fun hnone => by rw [hat] at hnone; cases hnone
      have hsame : w.takeAtHand.rest.pageRoom store = w.pageRoom store := by
        rw [pageRoom, pageSize_takeAtHand]
        rfl
      obtain ⟨offset, -, hrest⟩ := h.pending.place
      have hcount : min count rest.tail.length - w.takeAtHand.rest.atHand.length =
          min (count + 1) rest.length - (e :: more).length := by
        rw [hrest, hat, length_takeAtHand, hat, List.length_tail, List.length_append]
        simp only [List.length_cons]
        omega
      rw [pulled, hpull, ih hsettled hserves (hsame ▸ hroom), hsame, hcount]
    | nil =>
      cases hover : w.isOver with
      | true =>
        rw [pulled_of_isOver _ hat hover, h.pending.of_isOver hat hover]
        simp
      | false =>
        obtain ⟨hsettled, hlength, hsame, hcalls⟩ :=
          h.pending.pull_fetches hstore hserves hat hover
        have hsome : 0 < rest.length := by
          by_contra hnone
          rw [h.ends (by omega)] at hover
          cases hover
        have hcount : min count rest.tail.length - (w.pull c).1.rest.atHand.length =
            min (count + 1) rest.length - w.pageRoom store := by
          rw [hlength, List.length_tail]
          omega
        rw [pulled, ih hsettled hserves' (hsame ▸ hroom), hsame, hcount, hcalls, List.length_nil,
          Nat.sub_zero, ceilDiv_eq_succ hroom (by omega : 0 < min (count + 1) rest.length),
          CallCounts.bumps]

/-- Pulls from a walk that has nothing at hand: the first fetches a page, unless the walk is over. -/
theorem Pending.calls_pulled (h : Pending store w rest) (hstore : store.WellSized)
    (hserves : Connection.Serves store c) (hat : w.atHand = []) {count : Nat} (hcount : 0 < count) :
    (w.pulled count c).2.store.calls = c.store.calls.bumps .query
      (if w.isOver then 0 else max 1 (min count rest.length ⌈/⌉ w.pageRoom store)) := by
  have hroom : 0 < w.pageRoom store := Nat.lt_min.mpr ⟨h.pageSize, hstore.pageLimit⟩
  cases hover : w.isOver with
  | true => rw [pulled_of_isOver count hat hover, if_pos rfl, CallCounts.bumps_zero]
  | false =>
    obtain ⟨more, rfl⟩ : ∃ more, count = more + 1 := ⟨count - 1, by omega⟩
    obtain ⟨hsettled, hlength, hsame, hcalls⟩ := h.pull_fetches hstore hserves hat hover
    have hserves' := (h.pull hstore hserves).serves
    have hmore : min more rest.tail.length - (w.pull c).1.rest.atHand.length =
        min (more + 1) rest.length - w.pageRoom store := by
      rw [hlength, List.length_tail]
      omega
    have hpages : max 1 (min (more + 1) rest.length ⌈/⌉ w.pageRoom store) =
        (min (more + 1) rest.length - w.pageRoom store) ⌈/⌉ w.pageRoom store + 1 := by
      rcases Nat.eq_zero_or_pos rest.length with hnone | hsome
      · rw [hnone, Nat.min_zero, Nat.zero_sub, zero_ceilDiv]
        rfl
      · rw [ceilDiv_eq_succ hroom (by omega : 0 < min (more + 1) rest.length)]
        exact Nat.max_eq_right (Nat.succ_le_succ (Nat.zero_le _))
    rw [pulled, hsettled.calls_pulled hstore hserves', hsame, hmore, hcalls, if_neg (by simp), hpages,
      CallCounts.bumps]

end Walk

/-! ## Streams of one walk -/

theorem Walk.isOver_start (policy : Policy) (q : EntityQuery) (pageSize : Nat) :
    (Walk.start policy q pageSize).isOver = decide (q.limit = some 0) := by
  have hpage : 0 < max pageSize 1 := Nat.le_max_right ..
  cases hlimit : q.limit with
  | none => simp [start, isOver, nextLimit, hlimit]
  | some n =>
    have hzero : min n (max pageSize 1) = 0 ↔ n = 0 := by omega
    simp [start, isOver, nextLimit, hlimit, Bool.beq_eq_decide_eq, hzero]

end DocumentStore
