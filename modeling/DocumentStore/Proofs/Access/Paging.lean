import DocumentStore.Access.Walk
import DocumentStore.Proofs.Access.Chains
import DocumentStore.Proofs.Access.Serving
import DocumentStore.Proofs.Sorted.Stable
import DocumentStore.Proofs.Text.ReadBack
set_option autoImplicit false

/-!
# Page by page

A walk fetches the results of a query one page at a time.  `Walk.Pending` says which entities are
still to come: those at hand, then what the query finds from the walk's place on, as far as its limit
allows.  Every pull gives the first of them, wherever the pages end.
-/

namespace DocumentStore

/-- Without sort keys nothing is moved. -/
theorem stable_compareAll_nil (found : List Entity) :
    Sorted.stable (SortKey.compareAll []) found = found :=
  Sorted.stable_eq (fun _ _ h => by cases h) found

namespace Store

/-- A query's results are what it selects, sorted once. -/
theorem results_eq_stable (s : Store) (q : EntityQuery) :
    s.results q = Sorted.stable (SortKey.compareAll q.order) (s.entities.filter q.selects) := by
  unfold results
  cases q.order with
  | nil => exact (stable_compareAll_nil _).symm
  | cons k rest => rfl

/-- A query's results as they are sent: the keys alone if only they were asked for. -/
def project (keysOnly : Bool) (found : List Entity) : List Entity :=
  if keysOnly then found.map (·.keyOnly) else found

theorem project_append (keysOnly : Bool) (found more : List Entity) :
    project keysOnly (found ++ more) = project keysOnly found ++ project keysOnly more := by
  unfold project
  split
  · exact List.map_append
  · rfl

@[simp] theorem length_project (keysOnly : Bool) (found : List Entity) :
    (project keysOnly found).length = found.length := by
  unfold project
  split
  · exact List.length_map ..
  · rfl

@[simp] theorem project_nil (keysOnly : Bool) : project keysOnly [] = [] := by
  cases keysOnly <;> rfl

theorem take_project (keysOnly : Bool) (count : Nat) (found : List Entity) :
    (project keysOnly found).take count = project keysOnly (found.take count) := by
  unfold project
  split
  · exact List.map_take.symm
  · rfl

theorem drop_project (keysOnly : Bool) (count : Nat) (found : List Entity) :
    (project keysOnly found).drop count = project keysOnly (found.drop count) := by
  unfold project
  split
  · exact List.map_drop.symm
  · rfl

/-- At most a limit of entities. -/
def cut (limit : Option Nat) (found : List Entity) : List Entity :=
  match limit with
  | some limit => found.take limit
  | none => found

theorem length_cut_le (limit : Option Nat) (found : List Entity) :
    (cut limit found).length ≤ found.length := by
  cases limit with
  | none => exact Nat.le_refl _
  | some n => exact List.length_take_le' ..

/-- What a page takes away from results to come, and what it leaves. -/
theorem cut_eq_append {limit : Option Nat} {count : Nat} (h : ∀ n, limit = some n → count ≤ n)
    (found : List Entity) :
    cut limit found = found.take count ++ cut (limit.map (· - count)) (found.drop count) := by
  cases limit with
  | none => exact (List.take_append_drop count found).symm
  | some n =>
    have hsplit : n = count + (n - count) := by
      have := h n rfl
      omega
    show found.take n = found.take count ++ (found.drop count).take (n - count)
    rw [← List.take_add, ← hsplit]

theorem length_results_le (s : Store) (q : EntityQuery) : (s.results q).length ≤ s.size := by
  have hselected : (s.entities.filter q.selects).length ≤ s.size := by
    refine Nat.le_trans (List.length_filter_le ..) ?_
    rw [entities, List.length_map]
    exact Nat.le_refl _
  unfold results
  split
  · exact hselected
  · rw [Sorted.length_stable]
    exact hselected

/-! ## One page -/

/-- A store whose pages hold something, and whose places a cursor can say. -/
structure WellSized (s : Store) : Prop where
  pageLimit : 0 < s.pageLimit
  size : s.size < Text.wordBound

/-- Where a page begins, once places behind the last result are set back to the end. -/
def pageStart (s : Store) (q : EntityQuery) (offset : Nat) : Nat := min offset (s.results q).length

/-- How many results a page with a limit takes. -/
def pageCount (s : Store) (q : EntityQuery) (offset limit : Nat) : Nat :=
  min limit (min s.pageLimit ((s.results q).length - s.pageStart q offset))

section Page

variable (s : Store) (q : EntityQuery) (offset limit : Nat)

theorem page_entities : (s.page { q with limit := some limit } offset).entities =
    project q.keysOnly (((s.results q).drop (s.pageStart q offset)).take
      (s.pageCount q offset limit)) := rfl

theorem page_endCursor : (s.page { q with limit := some limit } offset).endCursor =
    some (.ofOffset (s.pageStart q offset + s.pageCount q offset limit)) := rfl

theorem page_more : (s.page { q with limit := some limit } offset).more =
    decide (s.pageStart q offset + s.pageCount q offset limit < (s.results q).length) := rfl

theorem pageStart_add_pageCount_le :
    s.pageStart q offset + s.pageCount q offset limit ≤ (s.results q).length := by
  rw [pageCount, pageStart]
  omega

theorem length_page_entities :
    (s.page { q with limit := some limit } offset).entities.length = s.pageCount q offset limit := by
  have hle := s.pageStart_add_pageCount_le q offset limit
  rw [page_entities, length_project, List.length_take, List.length_drop]
  omega

/-- A page that takes nothing although it may is at the end of the results. -/
theorem pageStart_eq_length (h : s.WellSized) (hlimit : 0 < limit)
    (hcount : s.pageCount q offset limit = 0) : s.pageStart q offset = (s.results q).length := by
  have hpage := h.pageLimit
  unfold pageCount at hcount
  have hle : s.pageStart q offset ≤ (s.results q).length := Nat.min_le_right ..
  omega

theorem drop_pageStart :
    (s.results q).drop (s.pageStart q offset) = (s.results q).drop offset := by
  unfold pageStart
  rcases Nat.le_total offset (s.results q).length with h | h
  · rw [Nat.min_eq_left h]
  · rw [Nat.min_eq_right h, List.drop_eq_nil_of_le h, List.drop_length]

end Page

end Store

/-! ## What a pull gives -/

/-- A pull gave the first of the entities to come, if there was one, and left the others. -/
structure Pulled.Gives {ω : Type} (store : Store) (pending : ω → List Entity → Prop)
    (rest : List Entity) (p : Pulled ω × Connection) : Prop where
  serves : Connection.Serves store p.2
  item : p.1.item = rest.head?.map .ok
  pending : pending p.1.rest rest.tail

namespace Walk

variable {store : Store} {c : Connection} {w : Walk} {rest : List Entity}

/-- What a walk finds from a place on, beside the entities at hand. -/
def beyond (store : Store) (w : Walk) (offset : Nat) : List Entity :=
  if w.done then []
  else Store.cut w.remaining (Store.project w.query.keysOnly ((store.results w.query).drop offset))

/-- The entities still to come. -/
structure Pending (store : Store) (w : Walk) (rest : List Entity) : Prop where
  pageSize : 0 < w.pageSize
  place : ∃ offset, Store.startOffset w.query = .ok offset ∧ rest = w.atHand ++ w.beyond store offset

theorem nextLimit_le {n : Nat} (h : w.remaining = some n) : w.nextLimit ≤ n := by
  rw [nextLimit, h]
  exact Nat.min_le_left ..

namespace Pending

theorem finish (h : Pending store w rest) : Pending store w.finish [] := by
  obtain ⟨offset, hstart, -⟩ := h.place
  exact ⟨h.pageSize, offset, hstart, rfl⟩

theorem takeAtHand_eq (h : Pending store w rest) (hend : w.atHand = [] → w.done = true) :
    w.takeAtHand.item = rest.head?.map .ok ∧ Pending store w.takeAtHand.rest rest.tail := by
  have hfinish := h.finish
  obtain ⟨offset, hstart, rfl⟩ := h.place
  cases hat : w.atHand with
  | nil =>
    rw [beyond, if_pos (hend hat), Walk.takeAtHand, hat]
    exact ⟨rfl, hfinish⟩
  | cons e more =>
    rw [Walk.takeAtHand, hat]
    exact ⟨rfl, h.pageSize, offset, hstart, rfl⟩

theorem takeAtHand (h : Pending store w rest) (hserves : Connection.Serves store c)
    (hend : w.atHand = [] → w.done = true) :
    Pulled.Gives store (Pending store) rest (w.takeAtHand, c) :=
  ⟨hserves, (h.takeAtHand_eq hend).1, (h.takeAtHand_eq hend).2⟩

theorem of_isOver (h : Pending store w rest) (hat : w.atHand = []) (hover : w.isOver = true) :
    rest = [] := by
  obtain ⟨offset, -, rfl⟩ := h.place
  have hpage := h.pageSize
  rw [hat, List.nil_append, beyond]
  simp only [isOver, Bool.or_eq_true, beq_iff_eq, nextLimit] at hover
  split
  · rfl
  · next hdone =>
    rcases hover with hover | hover
    · exact absurd hover hdone
    · cases hremaining : w.remaining with
      | none =>
        rw [hremaining] at hover
        dsimp only at hover
        omega
      | some n =>
        rw [hremaining] at hover
        have hn : n = 0 := by
          dsimp only at hover
          omega
        rw [hn, Store.cut, List.take_zero]

/-- The page that is fetched when none is at hand has the next of the entities to come. -/
theorem arrive (hstore : store.WellSized) (hpage : 0 < w.pageSize) (hover : w.isOver = false)
    (offset : Nat) :
    Pending store (w.arrive (store.page { w.query with limit := some w.nextLimit } offset))
      (w.beyond store offset) := by
  simp only [isOver, Bool.or_eq_false_iff, beq_eq_false_iff_ne] at hover
  obtain ⟨hdone, hlimit⟩ := hover
  have hend := store.pageStart_add_pageCount_le w.query offset w.nextLimit
  have hfetched := store.length_page_entities w.query offset w.nextLimit
  have hcount : ∀ n, w.remaining = some n → store.pageCount w.query offset w.nextLimit ≤ n := by
    intro n hn
    exact Nat.le_trans (Nat.min_le_left ..) (nextLimit_le hn)
  -- what comes after the page, which is nothing if the page is the last
  have hafter : (w.arrive (store.page { w.query with limit := some w.nextLimit } offset)).beyond store
      (store.pageStart w.query offset + store.pageCount w.query offset w.nextLimit) =
      Store.cut (w.remaining.map (· - store.pageCount w.query offset w.nextLimit))
        (Store.project w.query.keysOnly ((store.results w.query).drop
          (store.pageStart w.query offset + store.pageCount w.query offset w.nextLimit))) := by
    simp only [beyond, Walk.arrive, hfetched, Store.page_more, Store.page_endCursor]
    split
    · next hlast =>
      have hall : (store.results w.query).length ≤
          store.pageStart w.query offset + store.pageCount w.query offset w.nextLimit := by
        simp only [Bool.or_eq_true, Bool.not_eq_true', decide_eq_false_iff_not, beq_iff_eq,
          Option.isNone_some, Bool.false_eq_true, or_false] at hlast
        rcases hlast with hmore | hzero
        · omega
        · have := store.pageStart_eq_length w.query offset w.nextLimit hstore (by omega) hzero
          omega
      rw [List.drop_eq_nil_of_le hall, Store.project_nil]
      cases w.remaining <;> simp [Store.cut]
    · rfl
  refine ⟨hpage, store.pageStart w.query offset + store.pageCount w.query offset w.nextLimit, ?_, ?_⟩
  · have hplace := Cursor.offset?_ofOffset (Nat.lt_of_le_of_lt
      (Nat.le_trans hend (store.length_results_le w.query)) hstore.size)
    simp only [Walk.arrive, Store.page_endCursor, Store.startOffset, hplace]
  · rw [hafter, beyond, if_neg (by simp [hdone]), ← Store.drop_pageStart, Store.cut_eq_append hcount,
      ← List.drop_drop]
    simp only [Walk.arrive, Store.page_entities, Store.take_project, Store.drop_project]

theorem pull (h : Pending store w rest) (hstore : store.WellSized)
    (hserves : Connection.Serves store c) : Pulled.Gives store (Pending store) rest (w.pull c) := by
  rcases w.pull_cases c with ⟨hat, hp⟩ | ⟨hat, hover, hp⟩ | ⟨hat, hover, r, c', hr, hfetched⟩
  · rw [hp]
    exact h.takeAtHand hserves fun hnone => absurd hnone hat
  · rw [hp, h.of_isOver hat hover]
    exact ⟨hserves, rfl, h.finish⟩
  · obtain ⟨offset, hstart, hrest⟩ := h.place
    obtain ⟨c'', hquery, hserves'⟩ := hserves.runQuery w.policy
      (q := { w.query with limit := some w.nextLimit }) hstart
    obtain ⟨rfl, rfl⟩ := Prod.mk.inj (hr.symm.trans hquery)
    rw [hat, List.nil_append] at hrest
    subst hrest
    rcases hfetched with ⟨e, he, -⟩ | ⟨page, hpage, hp⟩
    · cases he
    · obtain rfl := Except.ok.inj hpage
      rw [hp]
      apply (arrive hstore h.pageSize hover offset).takeAtHand hserves'
      intro hnone
      simp only [Walk.arrive] at hnone ⊢
      rw [hnone]
      simp

theorem length_le (h : Pending store w rest) : rest.length ≤ w.bound store.size := by
  obtain ⟨offset, -, rfl⟩ := h.place
  have hresults := store.length_results_le w.query
  have hbeyond : (w.beyond store offset).length ≤ (store.results w.query).length := by
    unfold beyond
    split
    · exact Nat.zero_le _
    · refine Nat.le_trans (Store.length_cut_le ..) ?_
      rw [Store.length_project, List.length_drop]
      exact Nat.sub_le ..
  rw [bound, List.length_append]
  omega

/-- Pulling until the end gives all that is to come. -/
theorem collectFrom (h : Pending store w rest) (hstore : store.WellSized)
    (hserves : Connection.Serves store c) {fuel : Nat} (hfuel : rest.length < fuel) :
    ∃ c', Walk.collectFrom fuel w c = (.ok rest, c') ∧ Connection.Serves store c' := by
  induction fuel generalizing w rest c with
  | zero => omega
  | succ fuel ih =>
    have hpull := h.pull hstore hserves
    unfold Walk.collectFrom
    rcases hw : w.pull c with ⟨⟨item, w'⟩, c'⟩
    rw [hw] at hpull
    have hitem : item = rest.head?.map .ok := hpull.item
    cases rest with
    | nil =>
      subst hitem
      exact ⟨c', rfl, hpull.serves⟩
    | cons e more =>
      subst hitem
      have hnext : w'.Pending store more := hpull.pending
      obtain ⟨c'', hmore, hserves'⟩ := ih hnext hpull.serves (Nat.lt_of_succ_lt_succ hfuel)
      refine ⟨c'', ?_, hserves'⟩
      dsimp only [List.head?_cons, Option.map_some]
      rw [hmore]

theorem collect (h : Pending store w rest) (hstore : store.WellSized)
    (hserves : Connection.Serves store c) :
    ∃ c', Walk.collect w c = (.ok rest, c') ∧ Connection.Serves store c' := by
  have hsize : c.store.size = store.size := by
    rw [Store.size, hserves.calm.documents, Store.size]
  rw [Walk.collect, hsize]
  exact h.collectFrom hstore hserves (Nat.lt_succ_of_le h.length_le)

end Pending

/-- A walk that has not begun: every result from the start of the query, as far as its limit allows, is
to come. -/
theorem pending_start_from (store : Store) (policy : Policy) {q : EntityQuery} (pageSize : Nat)
    {offset : Nat} (hstart : Store.startOffset q = .ok offset) :
    Pending store (.start policy q pageSize)
      (Store.cut q.limit (Store.project q.keysOnly ((store.results q).drop offset))) :=
  ⟨Nat.le_max_right .., offset, hstart, rfl⟩

theorem pending_start (store : Store) (policy : Policy) {q : EntityQuery} (pageSize : Nat)
    (hstart : q.start = none) : Pending store (.start policy q pageSize)
      (Store.cut q.limit (Store.project q.keysOnly (store.results q))) :=
  pending_start_from store policy pageSize (by rw [Store.startOffset, hstart])

end Walk

end DocumentStore
