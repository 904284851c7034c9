import DocumentStore.Proofs.Access.Streams
import DocumentStore.Proofs.Access.Wrote
set_option autoImplicit false

/-!
# How many items are still to come

The fuel of a reader is computed from the number of documents, also of those that it will not see.
Here is counted what walks and streams can still give.  The count never exceeds the fuel and goes down
with every item, so that fuel never runs out.
-/

namespace DocumentStore

theorem Action.bind_eq_ok {σ α β : Type} {x : Action σ α} {f : α → Action σ β} {s : σ} {b : β}
    (h : ((x >>= f) s).1 = .ok b) : ∃ a, (x s).1 = .ok a ∧ (f a (x s).2).1 = .ok b := by
  rw [bind_apply] at h
  rcases hx : x s with ⟨e | a, t⟩ <;> rw [hx] at h
  · cases h
  · exact ⟨a, rfl, h⟩

/-! ## Answers of calls -/

namespace Store

/-- A page that was sent is a page of the documents. -/
theorem runQuery_eq_ok {q : EntityQuery} {s : Store} {page : Page}
    (h : (runQuery q s).1 = .ok page) :
    ∃ (store : Store) (offset : Nat), store.documents = s.documents ∧ startOffset q = .ok offset ∧
      page = store.page q offset := by
  rw [runQuery_eq] at h
  obtain ⟨_, -, h⟩ := Action.bind_eq_ok h
  obtain ⟨offset, hoffset, h⟩ := Action.bind_eq_ok h
  cases h
  exact ⟨_, offset, (sameData_admission .query 0 s).documents, hoffset, rfl⟩

theorem length_of_lookup_eq_ok {keys : List Key} {s : Store} {found : List (Option Entity)}
    (h : (lookup keys s).1 = .ok found) : found.length = keys.length := by
  rw [lookup_eq] at h
  obtain ⟨_, -, h⟩ := Action.bind_eq_ok h
  cases h
  exact List.length_map ..

end Store

namespace Staging

theorem runQuery_eq_ok {q : EntityQuery} {g : Staging} {page : Page}
    (h : (runQuery q g).1 = .ok page) : (Store.runQuery q g.store).1 = .ok page := by
  cases hfinished : g.transaction.finished with
  | false =>
    rw [runQuery_unfinished hfinished] at h
    exact h
  | true =>
    rw [runQuery, Action.bind_error (ensureActive_finished hfinished)] at h
    cases h

theorem length_of_lookup_eq_ok {keys : List Key} {g : Staging} {found : List (Option Entity)}
    (h : (lookup keys g).1 = .ok found) : found.length = keys.length := by
  obtain ⟨_, -, h⟩ := Action.bind_eq_ok h
  obtain ⟨committed, hcommitted, h⟩ := Action.bind_eq_ok h
  cases h
  rw [List.length_map, List.length_zip, Store.length_of_lookup_eq_ok hcommitted, Nat.min_self]

end Staging

namespace Session

variable {α : Type} {s : Session}

theorem call_eq_ok {kind : CallKind} {direct : Action Store α} {staged : Action Staging α} {a : α}
    (h : (call kind direct staged s).1 = .ok a) :
    (direct s.store).1 = .ok a ∨ ∃ t, (staged ⟨s.store, t⟩).1 = .ok a := by
  unfold call at h
  cases ht : s.transaction with
  | none =>
    rw [ht] at h
    exact .inl h
  | some t =>
    rw [ht] at h
    exact .inr ⟨t, h⟩

theorem runQuery_eq_ok {q : EntityQuery} {page : Page} (h : (runQuery q s).1 = .ok page) :
    (Store.runQuery q s.store).1 = .ok page := by
  rcases call_eq_ok h with h | ⟨t, h⟩
  · exact h
  · exact Staging.runQuery_eq_ok h

/-- A look-up answers each key. -/
theorem length_of_lookupChunks_eq_ok {parts : List (List Key)} {found : List (Option Entity)}
    (h : (lookupChunks parts s).1 = .ok found) : found.length = parts.flatten.length := by
  induction parts generalizing s found with
  | nil =>
    cases h
    rfl
  | cons keys rest ih =>
    obtain ⟨first, hfirst, h⟩ := Action.bind_eq_ok h
    obtain ⟨more, hmore, h⟩ := Action.bind_eq_ok h
    cases h
    have hlength : first.length = keys.length := by
      rcases call_eq_ok hfirst with h | ⟨t, h⟩
      · exact Store.length_of_lookup_eq_ok h
      · exact Staging.length_of_lookup_eq_ok h
    rw [List.length_append, List.flatten_cons, List.length_append, hlength, ih hmore]

end Session

namespace Connection

variable {policy : Policy} {c : Connection} (hidle : c.slot.isActive = false)

include hidle

/-- An operation that was answered was answered by its calls, made on the documents as they were, with
nothing staged. -/
theorem execute_eq_ok {α : Type} {operation : OperationKind} {label : String}
    {body : Action Session α} {a : α} (h : (execute policy operation label body c).1 = .ok a) :
    ∃ s : Session, s.store.documents = c.store.documents ∧
      (∀ t, s.transaction = some t → t = ⟨∅, false⟩) ∧ (body s).1 = .ok a := by
  cases hclosed : c.closed with
  | true =>
    rw [execute, if_pos hclosed] at h
    cases h
  | false =>
    rw [execute_of_inactive hclosed hidle] at h
    split at h
    · have hdata := Store.sameData_takeFailure .start c.store
      unfold executeAlone at h
      rw [Store.beginTransaction, Action.bind_apply] at h
      rcases ht : Store.takeFailure .start c.store with ⟨e | _, store⟩ <;> rw [ht] at h hdata
      · cases h
      · dsimp only [Action.bind_apply, Action.modify, Action.pure_apply] at h
        split at h
        · next b s hbody =>
          obtain ⟨b, hfirst, hb⟩ := Action.bind_eq_ok (congrArg Prod.fst hbody)
          obtain ⟨_, -, hb⟩ := Action.bind_eq_ok hb
          cases hb
          cases h
          exact ⟨_, hdata.documents, fun t ht => (Option.some.inj ht).symm, hfirst⟩
        · cases h
    · unfold executeDirectly at h
      refine ⟨c.session none, rfl, fun t ht => (by cases ht), ?_⟩
      rcases hb : body (c.session none) with ⟨e | b, s⟩ <;> rw [hb] at h
      · cases h
      · exact h

theorem runQuery_eq_ok {q : EntityQuery} {page : Page} (h : (runQuery policy q c).1 = .ok page) :
    ∃ (store : Store) (offset : Nat), store.documents = c.store.documents ∧
      Store.startOffset q = .ok offset ∧ page = store.page q offset := by
  obtain ⟨s, hdocuments, -, h⟩ := execute_eq_ok hidle h
  rw [← hdocuments]
  exact Store.runQuery_eq_ok (Session.runQuery_eq_ok h)

theorem length_of_lookup_eq_ok {keys : List Key} {label : String} {found : List (Option Entity)}
    (h : (lookup policy keys label c).1 = .ok found) : found.length = keys.length := by
  obtain ⟨s, -, -, h⟩ := execute_eq_ok hidle h
  rw [Session.length_of_lookupChunks_eq_ok h, flatten_chunks]

end Connection

/-! ## Walks -/

namespace Store

/-- How many results a query has from its start on; none if the start is not a place. -/
def ahead (s : Store) (q : EntityQuery) : Nat :=
  match startOffset q with
  | .ok offset => (s.results q).length - offset
  | .error _ => 0

theorem ahead_congr {s s' : Store} (h : s'.documents = s.documents) (q : EntityQuery) :
    s'.ahead q = s.ahead q := by
  simp only [ahead, results_congr h]

theorem ahead_of_startOffset {q : EntityQuery} {offset : Nat} (h : startOffset q = .ok offset)
    (s : Store) : s.ahead q = (s.results q).length - offset := by
  rw [ahead, h]

theorem ahead_le (s : Store) (q : EntityQuery) : s.ahead q ≤ s.size := by
  unfold ahead
  split
  · exact Nat.le_trans (Nat.sub_le ..) (s.length_results_le q)
  · exact Nat.zero_le _

theorem ahead_ofOffset_le (s : Store) (q : EntityQuery) (n : Nat) :
    s.ahead { q with start := some (.ofOffset n) } ≤ (s.results q).length - n := by
  by_cases hn : n < Text.wordBound
  · have hstart : startOffset { q with start := some (.ofOffset n) } = .ok n := by
      simp only [startOffset, Cursor.offset?_ofOffset hn]
    rw [ahead_of_startOffset hstart]
    exact Nat.le_refl _
  · have hnone : (Cursor.ofOffset n).offset? = none := by rw [Cursor.offset?_ofOffset_eq, if_neg hn]
    simp only [ahead, startOffset, hnone]
    exact Nat.zero_le _

end Store

namespace Walk

variable {s s' : Store} {w : Walk} {c : Connection}

/-- How many entities a walk can still give. -/
def toCome (s : Store) (w : Walk) : Nat :=
  w.atHand.length + if w.done then 0 else s.ahead w.query

/-- How many items a walk can still give: entities, and perhaps a failure that ends it. -/
def items (s : Store) (w : Walk) : Nat :=
  if w.atHand = [] ∧ w.done = true then 0 else w.toCome s + 1

theorem toCome_congr (h : s'.documents = s.documents) (w : Walk) : w.toCome s' = w.toCome s := by
  simp only [toCome, Store.ahead_congr h]

theorem items_congr (h : s'.documents = s.documents) (w : Walk) : w.items s' = w.items s := by
  simp only [items, toCome_congr h]

theorem toCome_le (s : Store) (w : Walk) : w.toCome s ≤ w.bound s.size := by
  have hahead := s.ahead_le w.query
  unfold toCome bound
  split <;> omega

theorem items_le (s : Store) (w : Walk) : w.items s ≤ w.bound s.size + 1 := by
  have hcome := w.toCome_le s
  unfold items
  split <;> omega

theorem toCome_takeAtHand {item : Outcome Entity} (h : w.takeAtHand.item = some item) :
    w.takeAtHand.rest.toCome s + 1 = w.toCome s := by
  unfold takeAtHand at h ⊢
  cases hat : w.atHand with
  | nil =>
    rw [hat] at h
    cases h
  | cons e rest =>
    simp only [toCome, hat, List.length_cons]
    omega

/-- What a page brings is no longer to come from the query. -/
theorem toCome_arrive (s : Store) (w : Walk) (limit offset : Nat) :
    (w.arrive (s.page { w.query with limit := some limit } offset)).toCome s ≤
      (s.results w.query).length - offset := by
  have hend := s.pageStart_add_pageCount_le w.query offset limit
  have hstart : s.pageStart w.query offset = min offset (s.results w.query).length := rfl
  have hahead := s.ahead_ofOffset_le w.query
    (s.pageStart w.query offset + s.pageCount w.query offset limit)
  simp only [toCome, Walk.arrive, Store.length_page_entities, Store.page_endCursor]
  split <;> omega

theorem pull_wrote (w : Walk) (hidle : c.slot.isActive = false) :
    Connection.Wrote [] c (w.pull c).2 :=
  (pull_chain (fun _ => False) rfl c).1.read hidle

theorem pull_over (hat : w.atHand = []) (hdone : w.done = true) :
    w.pull c = (⟨none, w.finish⟩, c) := by
  have hover : w.isOver = true := by rw [isOver, hdone, Bool.true_or]
  rcases w.pull_cases c with ⟨hmore, -⟩ | ⟨-, -, hp⟩ | ⟨-, hfetches, -⟩
  · exact absurd hat hmore
  · exact hp
  · exact absurd hover (Bool.eq_false_iff.mp hfetches)

theorem takeAtHand_ne_error (w : Walk) (e : StorageError) :
    w.takeAtHand.item ≠ some (.error e) := by
  unfold takeAtHand
  split <;> exact fun heq => by cases heq

theorem pull_error {e : StorageError} (h : (w.pull c).1.item = some (.error e)) :
    (w.pull c).1.rest = w.finish := by
  rcases w.pull_cases c with ⟨-, hp⟩ | ⟨-, -, hp⟩ | ⟨-, -, r, c', -, ⟨e, -, hp⟩ | ⟨page, -, hp⟩⟩ <;>
    rw [hp] at h ⊢
  · exact absurd h (takeAtHand_ne_error w _)
  · exact absurd h (takeAtHand_ne_error _ _)

/-- An entity that was pulled is no longer to come. -/
theorem toCome_pull (hidle : c.slot.isActive = false) {e : Entity}
    (h : (w.pull c).1.item = some (.ok e)) :
    (w.pull c).1.rest.toCome c.store < w.toCome c.store := by
  rcases w.pull_cases c with
    ⟨-, hp⟩ | ⟨-, -, hp⟩ | ⟨hat, hover, r, c', hr, ⟨e, -, hp⟩ | ⟨page, rfl, hp⟩⟩ <;> rw [hp] at h ⊢
  · exact Nat.lt_of_lt_of_eq (Nat.lt_succ_self _) (toCome_takeAtHand h)
  · cases h
  · cases h
  · obtain ⟨store, offset, hdocuments, hoffset, rfl⟩ :=
      Connection.runQuery_eq_ok hidle (congrArg Prod.fst hr)
    have hwaiting : w.toCome store = (store.results w.query).length - offset := by
      rw [isOver, Bool.or_eq_false_iff] at hover
      rw [toCome, hat, if_neg (Bool.eq_false_iff.mp hover.1), List.length_nil, Nat.zero_add]
      exact Store.ahead_of_startOffset hoffset store
    rw [← toCome_congr hdocuments, ← toCome_congr hdocuments, hwaiting]
    exact Nat.lt_of_lt_of_le (Nat.lt_of_lt_of_eq (Nat.lt_succ_self _) (toCome_takeAtHand h))
      (toCome_arrive store w w.nextLimit offset)

/-- Every item that was pulled is no longer to come. -/
theorem items_pull (hidle : c.slot.isActive = false) {item : Outcome Entity}
    (h : (w.pull c).1.item = some item) :
    (w.pull c).1.rest.items c.store < w.items c.store := by
  have hmore : w.items c.store = w.toCome c.store + 1 := by
    rw [items, if_neg]
    rintro ⟨hat, hdone⟩
    rw [pull_over hat hdone] at h
    cases h
  rw [hmore]
  cases item with
  | error e =>
    rw [pull_error h, items, if_pos ⟨rfl, rfl⟩]
    exact Nat.succ_pos _
  | ok e =>
    have hless := toCome_pull hidle h
    unfold items
    split <;> omega

theorem toCome_after (hidle : c.slot.isActive = false) {e : Entity} {w' : Walk} {c' : Connection}
    (h : w.pull c = (⟨some (.ok e), w'⟩, c')) : w'.toCome c'.store < w.toCome c.store := by
  have hwrote := w.pull_wrote hidle
  have hless := toCome_pull (w := w) (e := e) hidle
  rw [h] at hwrote hless
  rw [toCome_congr hwrote.sameData.documents]
  exact hless rfl

theorem items_after (hidle : c.slot.isActive = false) {item : Outcome Entity} {w' : Walk}
    {c' : Connection} (h : w.pull c = (⟨some item, w'⟩, c')) :
    w'.items c'.store < w.items c.store := by
  have hwrote := w.pull_wrote hidle
  have hless := @items_pull w c hidle item
  rw [h] at hwrote hless
  rw [items_congr hwrote.sameData.documents]
  exact hless rfl

/-- How many pulls walks take to end, one after another. -/
def itemsAll (s : Store) : List Walk → Nat
  | [] => 0
  | w :: rest => w.items s + 1 + itemsAll s rest

theorem itemsAll_congr (h : s'.documents = s.documents) (walks : List Walk) :
    itemsAll s' walks = itemsAll s walks := by
  induction walks with
  | nil => rfl
  | cons w rest ih => rw [itemsAll, itemsAll, items_congr h, ih]

theorem itemsAll_ended (hidle : c.slot.isActive = false) {walks : List Walk} {w' : Walk}
    {c' : Connection} (h : w.pull c = (⟨none, w'⟩, c')) :
    itemsAll c'.store walks < itemsAll c.store (w :: walks) := by
  have hwrote := w.pull_wrote hidle
  rw [h] at hwrote
  rw [itemsAll_congr hwrote.sameData.documents, itemsAll]
  exact Nat.lt_add_of_pos_left (Nat.succ_pos _)

theorem itemsAll_after (hidle : c.slot.isActive = false) {walks : List Walk}
    {item : Outcome Entity} {w' : Walk} {c' : Connection} (h : w.pull c = (⟨some item, w'⟩, c')) :
    itemsAll c'.store (w' :: walks) < itemsAll c.store (w :: walks) := by
  have hwrote := w.pull_wrote hidle
  rw [h] at hwrote
  rw [itemsAll, itemsAll, itemsAll_congr hwrote.sameData.documents]
  exact Nat.add_lt_add_right (Nat.succ_lt_succ (items_after hidle h)) _

theorem itemsAll_le (s : Store) (walks : List Walk) :
    itemsAll s walks ≤ EntityStream.walksBound s.size walks := by
  induction walks with
  | nil => exact Nat.le_refl _
  | cons w rest ih =>
    have hfirst := w.items_le s
    rw [itemsAll, EntityStream.walksBound]
    omega

theorem collect_wrote (w : Walk) (hidle : c.slot.isActive = false) :
    Connection.Wrote [] c (w.collect c).2 :=
  Connection.Chain.read (collectFrom_chains _ rfl c) hidle

theorem length_of_collectFrom_eq_ok {fuel : Nat} {found : List Entity}
    (h : (collectFrom fuel w c).1 = .ok found) : found.length ≤ fuel := by
  induction fuel generalizing w c found with
  | zero =>
    cases h
    exact Nat.le_refl _
  | succ fuel ih =>
    unfold collectFrom at h
    rcases hp : w.pull c with ⟨⟨_ | e | e, w'⟩, c'⟩ <;> rw [hp] at h
    · cases h
      exact Nat.zero_le _
    · cases h
    · dsimp only at h
      rcases hm : collectFrom fuel w' c' with ⟨e' | more, c''⟩ <;> rw [hm] at h
      · cases h
      · cases h
        exact Nat.succ_le_succ (ih (congrArg Prod.fst hm))

end Walk

/-! ## Streams -/

theorem length_firstOfKey_le (seen : List Key) (found : List Entity) :
    (firstOfKey seen found).length ≤ found.length := by
  rw [firstOfKey_eq_sift]
  exact Sieve.length_sift_le ..

namespace EntityStream

variable {c : Connection}

/-- How many items a stream can still give. -/
def items (s : Store) : EntityStream → Nat
  | .ended => 0
  | .failing _ => 1
  | .walk w => w.items s
  | .sifted _ _ walks => Walk.itemsAll s walks
  | .merged walks _ _ => walksBound s.size walks + 1
  | .found _ _ keys _ _ _ => keys.length + 1
  | .ready items => items.length

theorem items_congr {s s' : Store} (h : s'.documents = s.documents) (stream : EntityStream) :
    stream.items s' = stream.items s := by
  cases stream with
  | walk w => exact w.items_congr h
  | sifted sieve seen walks => exact Walk.itemsAll_congr h walks
  | merged walks order limit => simp only [items, Store.size, h]
  | ended | failing | found | ready => rfl

/-- The fuel of a reader covers every item. -/
theorem items_le (s : Store) (stream : EntityStream) : stream.items s ≤ stream.bound s.size := by
  cases stream with
  | walk w => exact w.items_le s
  | sifted sieve seen walks => exact Walk.itemsAll_le s walks
  | ended | failing | merged | found | ready => exact Nat.le_refl _

theorem items_pullCollected {x : Action Connection (List Entity)} {most : Nat}
    (hx : ∀ found, (x c).1 = .ok found → found.length ≤ most) {item : Outcome Entity}
    (h : (pullCollected x c).1.item = some item) (s : Store) :
    (pullCollected x c).1.rest.items s < most + 1 := by
  unfold pullCollected at h ⊢
  rcases hr : x c with ⟨e | found, c'⟩ <;> rw [hr] at h hx
  · exact Nat.succ_pos _
  · have hmost := hx found rfl
    cases found with
    | nil => cases h
    | cons e rest => exact Nat.lt_succ_of_lt hmost

section Idle

variable (hidle : c.slot.isActive = false)

include hidle

theorem length_of_collectWalks_eq_ok {walks : List Walk} {found : List Entity}
    (h : (collectWalks walks c).1 = .ok found) :
    found.length ≤ walksBound c.store.size walks := by
  induction walks generalizing c found with
  | nil =>
    cases h
    exact Nat.zero_le _
  | cons w rest ih =>
    obtain ⟨first, hfirst, h⟩ := Action.bind_eq_ok h
    obtain ⟨more, hmore, h⟩ := Action.bind_eq_ok h
    cases h
    have hwrote := w.collect_wrote hidle
    have hrest := ih (hwrote.slot ▸ hidle) hmore
    have hfuel := Walk.length_of_collectFrom_eq_ok hfirst
    rw [Store.size, hwrote.sameData.documents] at hrest
    rw [List.length_append, walksBound]
    exact Nat.add_le_add (Nat.le_succ_of_le hfuel) hrest

theorem items_pullSifted (sieve : Sieve) {fuel : Nat} {seen : List Mark} {walks : List Walk}
    {item : Outcome Entity} (h : (pullSifted sieve fuel seen walks c).1.item = some item) :
    (pullSifted sieve fuel seen walks c).1.rest.items c.store < Walk.itemsAll c.store walks := by
  induction fuel generalizing seen walks c with
  | zero => cases h
  | succ fuel ih =>
    cases walks with
    | nil => cases h
    | cons w walks =>
      have hwrote := w.pull_wrote hidle
      have hless := @Walk.items_pull w c hidle
      unfold pullSifted at h ⊢
      rcases hp : w.pull c with ⟨⟨pulled, w'⟩, c'⟩
      rw [hp] at h hwrote hless
      have hidle' : c'.slot.isActive = false := hwrote.slot ▸ hidle
      have hdocuments : c'.store.documents = c.store.documents := hwrote.sameData.documents
      cases pulled with
      | none =>
        have hmore := ih hidle' h
        rw [items_congr hdocuments, Walk.itemsAll_congr hdocuments] at hmore
        exact Nat.lt_of_lt_of_le hmore (Nat.le_add_left ..)
      | some pulled =>
        cases pulled with
        | error e =>
          exact Nat.add_lt_add_right (Nat.succ_lt_succ (hless rfl)) _
        | ok e =>
          have hkept : Walk.itemsAll c.store (w' :: walks) < Walk.itemsAll c.store (w :: walks) :=
            Nat.add_lt_add_right (Nat.succ_lt_succ (hless rfl)) _
          have hskipped (hskip : (pullSifted sieve fuel seen (w' :: walks) c').1.item = some item) :
              (pullSifted sieve fuel seen (w' :: walks) c').1.rest.items c.store <
                Walk.itemsAll c.store (w :: walks) := by
            have hmore := ih hidle' hskip
            rw [items_congr hdocuments, Walk.itemsAll_congr hdocuments] at hmore
            exact Nat.lt_trans hmore hkept
          dsimp only at h ⊢
          split
          · next hmark =>
            rw [hmark] at h
            exact hskipped h
          · next mark hmark =>
            rw [hmark] at h
            dsimp only at h
            split
            · next hseen =>
              rw [if_pos hseen] at h
              exact hskipped h
            · exact hkept

/-- Every item that was pulled is no longer to come. -/
theorem items_pull {stream : EntityStream} {item : Outcome Entity}
    (h : (stream.pull c).1.item = some item) :
    (stream.pull c).1.rest.items c.store < stream.items c.store := by
  cases stream with
  | ended => cases h
  | failing e => exact Nat.zero_lt_one
  | walk w =>
    have hless := @Walk.items_pull w c hidle
    rw [pull] at h ⊢
    rcases hp : w.pull c with ⟨⟨_ | pulled, w'⟩, c'⟩ <;> rw [hp] at h hless
    · cases h
    · exact hless rfl
  | sifted sieve seen walks => exact items_pullSifted hidle sieve h
  | merged walks order limit =>
    refine items_pullCollected (fun found hfound => ?_) h c.store
    obtain ⟨all, hall, hfound⟩ := Action.bind_eq_ok hfound
    cases hfound
    exact Nat.le_trans (length_arrange_le ..) (Nat.le_trans (length_firstOfKey_le ..)
      (length_of_collectWalks_eq_ok hidle hall))
  | found policy label keys filters order limit =>
    refine items_pullCollected (fun found hfound => ?_) h c.store
    obtain ⟨all, hall, hfound⟩ := Action.bind_eq_ok hfound
    cases hfound
    rw [← Connection.length_of_lookup_eq_ok hidle hall]
    exact Nat.le_trans (length_arrange_le ..) (Nat.le_trans (List.length_filter_le ..)
      (List.length_filterMap_le ..))
  | ready items =>
    cases items with
    | nil => cases h
    | cons e rest => exact Nat.lt_succ_self _

theorem items_after {policy : Policy} {stream : EntityStream} (huses : stream.Uses policy)
    {item : Outcome Entity} {rest : EntityStream} {c' : Connection}
    (h : stream.pull c = (⟨some item, rest⟩, c')) : rest.items c'.store < stream.items c.store := by
  have hwrote := (pull_chain (fun _ => False) huses c).1.read hidle
  have hless := @items_pull c hidle stream item
  rw [h] at hwrote hless
  rw [items_congr hwrote.sameData.documents]
  exact hless rfl

end Idle

end EntityStream

end DocumentStore
