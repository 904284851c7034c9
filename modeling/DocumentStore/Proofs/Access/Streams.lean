import DocumentStore.Access.Stream
import DocumentStore.Proofs.Access.Paging
set_option autoImplicit false

/-!
# What streams give

`EntityStream.Pending` says which entities a stream has still to give.  As for walks, every pull
gives the first of them; a reader that takes items until the end has then seen all of them.  This is
so also where the first pull collects and arranges everything before it gives an item.
-/

namespace DocumentStore

/-- Entities without those whose mark was seen before or is missing. -/
def Sieve.sift (sieve : Sieve) (seen : List Mark) : List Entity → List Entity
  | [] => []
  | e :: rest =>
    match sieve.mark? e with
    | none => sift sieve seen rest
    | some mark =>
      if mark ∈ seen then sift sieve seen rest else e :: sift sieve (mark :: seen) rest

namespace Sieve

theorem sift_sublist (sieve : Sieve) (seen : List Mark) (found : List Entity) :
    (sieve.sift seen found).Sublist found := by
  induction found generalizing seen with
  | nil => exact .refl _
  | cons e rest ih =>
    unfold sift
    split
    · exact (ih seen).cons e
    · split
      · exact (ih seen).cons e
      · exact (ih _).cons_cons e

theorem length_sift_le (sieve : Sieve) (seen : List Mark) (rest : List Entity) :
    (sieve.sift seen rest).length ≤ rest.length :=
  (sift_sublist sieve seen rest).length_le

/-- A mark is left if there was an entity with it, and it was not seen before. -/
theorem exists_mem_sift {sieve : Sieve} {seen : List Mark} {found : List Entity} {mark : Mark} :
    (∃ e ∈ sieve.sift seen found, sieve.mark? e = some mark) ↔
      mark ∉ seen ∧ ∃ e ∈ found, sieve.mark? e = some mark := by
  induction found generalizing seen with
  | nil => simp [sift]
  | cons first rest ih =>
    unfold sift
    simp only [List.exists_mem_cons_iff]
    split
    · next hnone => simp [ih, hnone]
    · next own hown =>
      split
      · next hseen =>
        rw [ih, hown, Option.some.injEq]
        exact and_congr_right fun hfresh =>
          ⟨.inr, fun h => h.resolve_left fun heq => hfresh (heq ▸ hseen)⟩
      · next hunseen =>
        rw [List.exists_mem_cons_iff, ih, hown, Option.some.injEq, List.mem_cons, not_or]
        by_cases heq : own = mark
        · simp [heq ▸ hunseen, heq]
        · simp [heq, Ne.symm heq]

/-- What is left has no mark that was seen before, and no mark twice. -/
theorem pairwise_sift (sieve : Sieve) (seen : List Mark) (found : List Entity) :
    (∀ e ∈ sieve.sift seen found, ∀ mark ∈ seen, sieve.mark? e ≠ some mark) ∧
      (sieve.sift seen found).Pairwise fun a b => sieve.mark? a ≠ sieve.mark? b := by
  refine ⟨fun e he mark hseen hmark => (exists_mem_sift.mp ⟨e, he, hmark⟩).1 hseen, ?_⟩
  induction found generalizing seen with
  | nil => exact .nil
  | cons first rest ih =>
    unfold sift
    split
    · exact ih seen
    · next own hown =>
      split
      · exact ih seen
      · refine List.pairwise_cons.mpr ⟨fun e he heq => ?_, ih _⟩
        rw [hown] at heq
        exact (exists_mem_sift.mp ⟨e, he, heq.symm⟩).1 (List.mem_cons_self ..)

end Sieve

/-- The first entity of each key is what leaving repetitions out keeps. -/
theorem firstOfKey_eq_sift (seen : List Key) (found : List Entity) :
    firstOfKey seen found = Sieve.byKey.sift (seen.map .key) found := by
  induction found generalizing seen with
  | nil => rfl
  | cons e rest ih =>
    have hseen : Mark.key e.key ∈ seen.map Mark.key ↔ e.key ∈ seen :=
      List.mem_map_of_injective fun _ _ => Mark.key.inj
    rw [firstOfKey, Sieve.sift]
    simp only [Sieve.mark?, hseen, ih, List.map_cons]

theorem length_arrange_le (order : List SortKey) (limit : Option Nat) (found : List Entity) :
    (arrange order limit found).length ≤ found.length := by
  unfold arrange
  have hsorted : (if order.isEmpty then found
      else Sorted.stable (SortKey.compareAll order) found).length = found.length := by
    split
    · rfl
    · exact Sorted.length_stable ..
  cases limit with
  | none => exact Nat.le_of_eq hsorted
  | some limit => exact Nat.le_trans (List.length_take_le' ..) (Nat.le_of_eq hsorted)

namespace EntityStream

variable {store : Store} {c : Connection} {walks : List Walk} {rest : List Entity}

/-- The entities that walks have still to give, one walk after another. -/
def PendingAll (store : Store) : List Walk → List Entity → Prop
  | [], rest => rest = []
  | w :: walks, rest =>
    ∃ first more, w.Pending store first ∧ PendingAll store walks more ∧ rest = first ++ more

/-- The entities that a stream has still to give. -/
inductive Pending (store : Store) : EntityStream → List Entity → Prop
  | ended : Pending store .ended []
  | walk {w : Walk} {rest : List Entity} (h : w.Pending store rest) : Pending store (.walk w) rest
  | sifted (sieve : Sieve) (seen : List Mark) {walks : List Walk} {rest : List Entity}
    (h : PendingAll store walks rest) :
    Pending store (.sifted sieve seen walks) (sieve.sift seen rest)
  | merged (order : List SortKey) (limit : Option Nat) {walks : List Walk} {rest : List Entity}
    (h : PendingAll store walks rest) :
    Pending store (.merged walks order limit) (arrange order limit (Sieve.byKey.sift [] rest))
  | ready (items : List Entity) : Pending store (.ready items) items

theorem PendingAll.length_le (h : PendingAll store walks rest) :
    rest.length + walks.length ≤ walksBound store.size walks := by
  induction walks generalizing rest with
  | nil =>
    rw [h]
    exact Nat.zero_le _
  | cons w walks ih =>
    obtain ⟨first, more, hfirst, hmore, rfl⟩ := h
    have := ih hmore
    have := hfirst.length_le
    rw [walksBound, List.length_append, List.length_cons]
    omega

-- The fuel pays for every entity to come and for the end of every walk.
theorem pullSifted_gives (hstore : store.WellSized) (sieve : Sieve) {fuel : Nat} {seen : List Mark}
    (h : PendingAll store walks rest) (hserves : Connection.Serves store c)
    (hfuel : rest.length + walks.length < fuel) :
    Pulled.Gives store (Pending store) (sieve.sift seen rest)
      (pullSifted sieve fuel seen walks c) := by
  induction fuel generalizing seen walks rest c with
  | zero => omega
  | succ fuel ih =>
    cases walks with
    | nil =>
      rw [h]
      exact ⟨hserves, rfl, .ended⟩
    | cons w walks =>
      obtain ⟨first, more, hfirst, hmore, rfl⟩ := h
      have hpull := hfirst.pull hstore hserves
      rw [List.length_append, List.length_cons] at hfuel
      unfold pullSifted
      rcases hw : w.pull c with ⟨⟨item, w'⟩, c'⟩
      rw [hw] at hpull
      have hitem : item = first.head?.map .ok := hpull.item
      have hnext : w'.Pending store first.tail := hpull.pending
      cases first with
      | nil =>
        subst hitem
        exact ih hmore hpull.serves (by rw [List.length_nil] at hfuel; simp only [List.nil_append]; omega)
      | cons e first =>
        subst hitem
        have hall : PendingAll store (w' :: walks) (first ++ more) :=
          ⟨first, more, hnext, hmore, rfl⟩
        have hless : (first ++ more).length + (w' :: walks).length < fuel := by
          rw [List.length_append, List.length_cons]
          rw [List.length_cons] at hfuel
          omega
        rw [List.cons_append, Sieve.sift]
        dsimp only [List.head?_cons, Option.map_some]
        cases sieve.mark? e with
        | none => exact ih hall hpull.serves hless
        | some mark =>
          dsimp only
          by_cases hseen : mark ∈ seen
          · rw [if_pos hseen, if_pos hseen]
            exact ih hall hpull.serves hless
          · rw [if_neg hseen, if_neg hseen]
            exact ⟨hpull.serves, rfl, .sifted _ _ hall⟩

/-- Collecting walks one after another gives all that they have still to give. -/
theorem PendingAll.collect (h : PendingAll store walks rest) (hstore : store.WellSized)
    (hserves : Connection.Serves store c) :
    ∃ c', collectWalks walks c = (.ok rest, c') ∧ Connection.Serves store c' := by
  induction walks generalizing rest c with
  | nil =>
    rw [h]
    exact ⟨c, rfl, hserves⟩
  | cons w walks ih =>
    obtain ⟨first, more, hfirst, hmore, rfl⟩ := h
    obtain ⟨c₁, hcollect, hserves₁⟩ := hfirst.collect hstore hserves
    obtain ⟨c₂, hrest, hserves₂⟩ := ih hmore hserves₁
    refine ⟨c₂, ?_, hserves₂⟩
    rw [collectWalks, Action.bind_ok hcollect, Action.bind_ok hrest, Action.pure_apply]

theorem pullReady_gives (hserves : Connection.Serves store c) (items : List Entity) :
    Pulled.Gives store (Pending store) items (pullReady items, c) := by
  cases items with
  | nil => exact ⟨hserves, rfl, .ended⟩
  | cons e more => exact ⟨hserves, rfl, .ready more⟩

/-- A pull gives the next of the entities to come. -/
theorem Pending.pull {s : EntityStream} (h : Pending store s rest) (hstore : store.WellSized)
    (hserves : Connection.Serves store c) :
    Pulled.Gives store (Pending store) rest (s.pull c) := by
  cases h with
  | ended => exact ⟨hserves, rfl, .ended⟩
  | walk h =>
    rename_i w
    have hpull := h.pull hstore hserves
    rw [EntityStream.pull]
    rcases hw : w.pull c with ⟨⟨item, w'⟩, c'⟩
    rw [hw] at hpull
    have hitem : item = rest.head?.map .ok := hpull.item
    cases rest with
    | nil =>
      subst hitem
      exact ⟨hpull.serves, rfl, .ended⟩
    | cons e more =>
      subst hitem
      exact ⟨hpull.serves, rfl, .walk hpull.pending⟩
  | sifted sieve seen h =>
    have hsize : c.store.size = store.size := by
      rw [Store.size, hserves.calm.documents, Store.size]
    rw [EntityStream.pull, hsize]
    exact pullSifted_gives hstore _ h hserves (Nat.lt_succ_of_le h.length_le)
  | merged order limit h =>
    obtain ⟨c', hcollect, hserves'⟩ := h.collect hstore hserves
    rw [EntityStream.pull, pullCollected, mergeWalks, Action.bind_ok hcollect, Action.pure_apply]
    dsimp only
    rw [firstOfKey_eq_sift]
    exact pullReady_gives hserves' _
  | ready items => exact pullReady_gives hserves _

theorem Pending.length_le {s : EntityStream} (h : Pending store s rest) :
    rest.length ≤ s.bound store.size := by
  cases h with
  | ended => exact Nat.le_refl _
  | walk h => exact Nat.le_succ_of_le h.length_le
  | sifted sieve seen h =>
    exact Nat.le_trans (Sieve.length_sift_le ..) (Nat.le_trans (Nat.le_add_right ..) h.length_le)
  | merged order limit h =>
    refine Nat.le_succ_of_le (Nat.le_trans (length_arrange_le ..) ?_)
    exact Nat.le_trans (Sieve.length_sift_le ..) (Nat.le_trans (Nat.le_add_right ..) h.length_le)
  | ready items => exact Nat.le_refl _

end EntityStream

namespace ItemStream

variable {α : Type} {store : Store} {c : Connection}

/-- A reader that takes items gets them in order, and sees the end if it asks for more. -/
theorem take_of_pending (hstore : store.WellSized) (count : Nat) {s : ItemStream α}
    {rest : List Entity} (h : s.source.Pending store rest) (hserves : Connection.Serves store c) :
    ∃ s' c', s.take count c =
        (⟨(rest.take count).map s.read, decide (rest.length < count)⟩, s', c') ∧
      s'.read = s.read ∧ Connection.Serves store c' ∧ s'.source.Pending store (rest.drop count) := by
  induction count generalizing s rest c with
  | zero => exact ⟨s, c, by simp [take], rfl, hserves, h⟩
  | succ count ih =>
    have hpull := h.pull hstore hserves
    unfold take
    rcases hs : s.source.pull c with ⟨⟨item, source⟩, c'⟩
    rw [hs] at hpull
    have hitem : item = rest.head?.map .ok := hpull.item
    have hpending : source.Pending store rest.tail := hpull.pending
    cases rest with
    | nil =>
      subst hitem
      exact ⟨{ s with source }, c', by simp, rfl, hpull.serves, hpending⟩
    | cons e more =>
      subst hitem
      obtain ⟨s', c'', htake, hread, hserves', hpending'⟩ :=
        ih (s := { s with source }) hpending hpull.serves
      dsimp only [List.head?_cons, Option.map_some]
      rw [htake]
      refine ⟨s', c'', ?_, hread, hserves', hpending'⟩
      have hended : decide (more.length < count) = decide ((e :: more).length < count + 1) :=
        decide_eq_decide.mpr Nat.succ_lt_succ_iff.symm
      simp only [List.tail_cons, Except.bind, hread, List.take_succ_cons, List.map_cons]
      rw [← hended]
      rfl

/-- Draining a stream gives every entity that it has still to give. -/
theorem drain_of_pending (hstore : store.WellSized) {s : ItemStream α} {rest : List Entity}
    (h : s.source.Pending store rest) (hserves : Connection.Serves store c) :
    (s.drain c).1 = ⟨rest.map s.read, true⟩ := by
  have hsize : c.store.size = store.size := by
    rw [Store.size, hserves.calm.documents, Store.size]
  have hlength := h.length_le
  obtain ⟨s', c', htake, -⟩ := take_of_pending hstore (s.source.bound store.size + 1) h hserves
  rw [drain, hsize, htake, List.take_of_length_le (by omega), decide_eq_true (by omega)]

end ItemStream

end DocumentStore
