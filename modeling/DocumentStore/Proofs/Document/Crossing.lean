import DocumentStore.Proofs.Document.Order
import DocumentStore.Proofs.Sorted.Stable
import Mathlib.Data.List.Basic
set_option autoImplicit false

/-!
# When sorting is by a total preorder

The comparison of sorting fails to be transitive in one way only.  Instants are compared with each
other to the nanosecond but with integers as microseconds, so that an integer may be no earlier than
the later of two instants and no later than the earlier one.  Values without such a crossing are in a
total preorder, and so are entities if the values of each sort key are; then what is sorted is in
ascending order.
-/

namespace DocumentStore

namespace Sorted

variable {α β : Type} {cmp cmp' : α → α → Ordering} {xs : List α}

/-- Comparing by one comparison and then by another. -/
theorem TransAmong.lex [Std.OrientedCmp cmp] [Std.OrientedCmp cmp'] (h : TransAmong cmp xs)
    (h' : TransAmong cmp' xs) : TransAmong (fun a b => (cmp a b).then (cmp' a b)) xs := by
  have := h.transCmp
  have := h'.transCmp
  have hlex : Std.TransCmp (compareLex (fun a b : { x // x ∈ xs } => cmp a.1 b.1)
      fun a b => cmp' a.1 b.1) := inferInstance
  exact fun a ha b hb c hc => hlex.isLE_trans (a := ⟨a, ha⟩) (b := ⟨b, hb⟩) (c := ⟨c, hc⟩)

theorem TransAmong.eq_trans [Std.OrientedCmp cmp] (h : TransAmong cmp xs) {a b c : α} (ha : a ∈ xs)
    (hb : b ∈ xs) (hc : c ∈ xs) (hab : cmp a b = .eq) (hbc : cmp b c = .eq) : cmp a c = .eq := by
  have hle {x y : α} (heq : cmp x y = .eq) : (cmp x y).isLE := heq ▸ rfl
  have hac := h a ha b hb c hc (hle hab) (hle hbc)
  have hca := h c hc b hb a ha (hle (Std.OrientedCmp.eq_symm hbc))
    (hle (Std.OrientedCmp.eq_symm hab))
  exact Std.OrientedCmp.isLE_antisymm hac hca

theorem transAmong_map {f : β → α} {ys : List β} :
    TransAmong cmp (ys.map f) ↔ TransAmong (fun a b => cmp (f a) (f b)) ys := by
  simp only [TransAmong, List.forall_mem_map]

theorem transAmong_flip :
    TransAmong (fun a b => cmp b a) xs ↔ TransAmong cmp xs :=
  ⟨fun h a ha b hb c hc hab hbc => h c hc b hb a ha hbc hab,
    fun h a ha b hb c hc hab hbc => h c hc b hb a ha hbc hab⟩

end Sorted

/-! ## Integers across instants -/

namespace Timestamp

/-- An integer that is no earlier than the later of two instants and no later than the earlier one,
compared with them as microseconds. -/
def Crosses (n : Int) (early late : Timestamp) : Prop :=
  compare early late = .lt ∧ late.micros ≤ n ∧ n ≤ early.micros

instance (n : Int) (early late : Timestamp) : Decidable (Crosses n early late) :=
  inferInstanceAs (Decidable (_ ∧ _ ∧ _))

theorem compare_eq_lt_iff {t u : Timestamp} :
    compare t u = .lt ↔ t.seconds < u.seconds ∨ t.seconds = u.seconds ∧ t.nanos < u.nanos := by
  show compareLex (compareOn seconds) (compareOn nanos) t u = .lt ↔ _
  rw [compareLex, Ordering.then_eq_lt, compareOn, compareOn, Int.compare_eq_lt, Int.compare_eq_eq,
    Nat.compare_eq_lt]

/-- Outside leap seconds, the instants are different ones of the microsecond of the integer. -/
theorem crosses_iff_of_lt {n : Int} {early late : Timestamp} (hearly : early.nanos < 1000000000)
    (hlate : late.nanos < 1000000000) :
    Crosses n early late ↔ compare early late = .lt ∧ early.micros = n ∧ late.micros = n := by
  unfold Crosses
  rw [compare_eq_lt_iff]
  unfold micros
  omega

theorem eq_of_not_crosses {n : Int} {t u : Timestamp} (hclear : ¬Crosses n t u)
    (h : (compare t u).isLE) (hlow : u.micros ≤ n) (hhigh : n ≤ t.micros) : t = u := by
  cases hcompare : compare t u with
  | lt => exact absurd ⟨hcompare, hlow, hhigh⟩ hclear
  | eq => exact Std.LawfulEqOrd.eq_of_compare hcompare
  | gt => exact absurd (hcompare ▸ h) (by decide)

end Timestamp

namespace NativeValue

/-- Whether an integer among values crosses two instants among them. -/
def Crossed (values : List NativeValue) : Prop :=
  ∃ n ∈ values.filterMap integer?, ∃ early ∈ values.filterMap timestamp?,
    ∃ late ∈ values.filterMap timestamp?, Timestamp.Crosses n early late

instance (values : List NativeValue) : Decidable (Crossed values) :=
  inferInstanceAs (Decidable (∃ n ∈ values.filterMap integer?,
    ∃ early ∈ values.filterMap timestamp?, ∃ late ∈ values.filterMap timestamp?,
      Timestamp.Crosses n early late))

theorem crossed_iff {values : List NativeValue} :
    Crossed values ↔ ∃ n early late, .integer n ∈ values ∧ .timestamp early ∈ values ∧
      .timestamp late ∈ values ∧ Timestamp.Crosses n early late := by
  have hinteger (n : Int) : n ∈ values.filterMap integer? ↔ .integer n ∈ values := by
    rw [List.mem_filterMap]
    refine ⟨fun ⟨a, ha, hn⟩ => ?_, fun hmem => ⟨_, hmem, rfl⟩⟩
    cases a <;> cases hn
    exact ha
  have htimestamp (t : Timestamp) : t ∈ values.filterMap timestamp? ↔ .timestamp t ∈ values := by
    rw [List.mem_filterMap]
    refine ⟨fun ⟨a, ha, ht⟩ => ?_, fun hmem => ⟨_, hmem, rfl⟩⟩
    cases a <;> cases ht
    exact ha
  simp only [Crossed, hinteger, htimestamp]
  constructor
  · rintro ⟨n, hn, early, hearly, late, hlate, hcrosses⟩
    exact ⟨n, early, late, hn, hearly, hlate, hcrosses⟩
  · rintro ⟨n, early, late, hn, hearly, hlate, hcrosses⟩
    exact ⟨n, hn, early, hearly, late, hlate, hcrosses⟩

/-! ## Values of different types -/

theorem order_of_rank_ne {a b : NativeValue} (h : a.rank ≠ b.rank) :
    a.order b = compare a.rank b.rank := by
  cases a <;> cases b <;> first | rfl | exact absurd rfl h

theorem rank_le_of_isLE {a b : NativeValue} (h : (a.order b).isLE) : a.rank ≤ b.rank := by
  by_cases hrank : a.rank = b.rank
  · exact Nat.le_of_eq hrank
  · rw [order_of_rank_ne hrank, Nat.isLE_compare] at h
    exact h

theorem rank_eq_one {a : NativeValue} (h : a.rank = 1) :
    (∃ n, a = .integer n) ∨ ∃ t, a = .timestamp t := by
  cases a <;> cases h
  · exact .inl ⟨_, rfl⟩
  · exact .inr ⟨_, rfl⟩

/-! ## Transitivity -/

/-- Values of one rank, if they are not integers and instants, are of one type. -/
theorem isLE_trans_of_rank_ne_one {a b c : NativeValue} (hrank : a.rank ≠ 1)
    (hab : a.rank = b.rank) (hac : a.rank = c.rank) (h : (a.order b).isLE) (h' : (b.order c).isLE) :
    (a.order c).isLE := by
  cases a <;> cases b <;> cases hab <;> cases c <;> cases hac
  case null => rfl
  case boolean => exact Std.TransOrd.isLE_trans (α := Bool) h h'
  case double => exact Std.TransOrd.isLE_trans (α := Double) h h'
  case string => exact Std.TransOrd.isLE_trans (α := String) h h'
  case blob => exact Std.TransOrd.isLE_trans (α := List UInt8) h h'
  all_goals exact absurd rfl hrank

-- an integer beside two instants: were the microseconds in disorder, it would cross them
theorem isLE_trans_of_rank_eq_one {a b c : NativeValue} (ha : a.rank = 1) (hb : b.rank = 1)
    (hc : c.rank = 1) (hclear : ¬Crossed [a, b, c]) (h : (a.order b).isLE) (h' : (b.order c).isLE) :
    (a.order c).isLE := by
  have hcrosses (n : Int) (early late : Timestamp) (hn : .integer n ∈ [a, b, c])
      (hearly : .timestamp early ∈ [a, b, c]) (hlate : .timestamp late ∈ [a, b, c]) :
      ¬Timestamp.Crosses n early late := fun hcrosses =>
    hclear (crossed_iff.mpr ⟨n, early, late, hn, hearly, hlate, hcrosses⟩)
  obtain ⟨m, rfl⟩ | ⟨t, rfl⟩ := rank_eq_one ha <;> obtain ⟨n, rfl⟩ | ⟨u, rfl⟩ := rank_eq_one hb <;>
    obtain ⟨k, rfl⟩ | ⟨v, rfl⟩ := rank_eq_one hc
  · exact Std.TransOrd.isLE_trans (α := Int) h h'
  · exact Std.TransOrd.isLE_trans (α := Int) h h'
  · exact Std.TransOrd.isLE_trans (α := Int) h h'
  · have hm : m ≤ u.micros := Int.isLE_compare.mp h
    refine Int.isLE_compare.mpr (Int.not_lt.mp fun hlt => ?_)
    obtain rfl := Timestamp.eq_of_not_crosses (hcrosses m u v (by simp) (by simp) (by simp)) h'
      (Int.le_of_lt hlt) hm
    exact Int.not_lt.mpr hm hlt
  · exact Std.TransOrd.isLE_trans (α := Int) h h'
  · have ht : t.micros ≤ n := Int.isLE_compare.mp h
    have hv : n ≤ v.micros := Int.isLE_compare.mp h'
    show (compare t v).isLE
    cases hcompare : compare t v with
    | lt => rfl
    | eq => rfl
    | gt =>
      exact absurd ⟨Std.OrientedCmp.gt_iff_lt.mp hcompare, ht, hv⟩
        (hcrosses n v t (by simp) (by simp) (by simp))
  · have hu : u.micros ≤ k := Int.isLE_compare.mp h'
    refine Int.isLE_compare.mpr (Int.not_lt.mp fun hlt => ?_)
    obtain rfl := Timestamp.eq_of_not_crosses (hcrosses k t u (by simp) (by simp) (by simp)) h
      hu (Int.le_of_lt hlt)
    exact Int.not_lt.mpr hu hlt
  · exact Std.TransOrd.isLE_trans (α := Timestamp) h h'

/-- Only a crossing keeps the comparison from being transitive. -/
theorem order_isLE_trans {a b c : NativeValue} (hclear : ¬Crossed [a, b, c]) (h : (a.order b).isLE)
    (h' : (b.order c).isLE) : (a.order c).isLE := by
  have hab := rank_le_of_isLE h
  have hbc := rank_le_of_isLE h'
  by_cases hac : a.rank = c.rank
  · have heq : a.rank = b.rank := Nat.le_antisymm hab (hac ▸ hbc)
    by_cases hone : a.rank = 1
    · exact isLE_trans_of_rank_eq_one hone (heq ▸ hone) (hac ▸ hone) hclear h h'
    · exact isLE_trans_of_rank_ne_one hone heq hac h h'
  · rw [order_of_rank_ne hac, Nat.isLE_compare]
    exact Nat.le_trans hab hbc

/-- The comparison is transitive among values exactly if no integer among them crosses instants. -/
theorem transAmong_order_iff {values : List NativeValue} :
    Sorted.TransAmong order values ↔ ¬Crossed values := by
  constructor
  · intro htrans hcrossed
    obtain ⟨n, early, late, hn, hearly, hlate, hlt, hlow, hhigh⟩ := crossed_iff.mp hcrossed
    -- the later instant is no later than the integer, and that is no later than the earlier one
    have hle := htrans _ hlate _ hn _ hearly (Int.isLE_compare.mpr hlow)
      (Int.isLE_compare.mpr hhigh)
    exact Std.OrientedCmp.not_lt_of_isLE hle hlt
  · intro hclear a ha b hb c hc
    refine order_isLE_trans fun hcrossed => hclear ?_
    obtain ⟨n, early, late, hn, hearly, hlate, hcrosses⟩ := crossed_iff.mp hcrossed
    have hsub : [a, b, c] ⊆ values := by simp [ha, hb, hc]
    exact crossed_iff.mpr ⟨n, early, late, hsub hn, hsub hearly, hsub hlate, hcrosses⟩

/-- An integer is level with two instants that are not level with each other, and so the values stay
as they are when they are sorted. -/
theorem order_crossed :
    order (.timestamp ⟨0, 1⟩) (.integer 0) = .eq ∧ order (.integer 0) (.timestamp ⟨0, 0⟩) = .eq ∧
      order (.timestamp ⟨0, 1⟩) (.timestamp ⟨0, 0⟩) = .gt ∧
      Sorted.stable order [.timestamp ⟨0, 1⟩, .integer 0, .timestamp ⟨0, 0⟩] =
        [.timestamp ⟨0, 1⟩, .integer 0, .timestamp ⟨0, 0⟩] := by
  decide

end NativeValue

namespace SortKey

open NativeValue

/-- By one sort key, entities are compared as the values that they have for it. -/
theorem transAmong_compare_iff {k : SortKey} {entities : List Entity} :
    Sorted.TransAmong k.compare entities ↔ ¬Crossed (entities.map k.value) := by
  rw [← transAmong_order_iff, Sorted.transAmong_map]
  rcases k with ⟨property, ascending | descending⟩
  · rfl
  · exact Sorted.transAmong_flip

theorem transAmong_compareAll {keys : List SortKey} {entities : List Entity}
    (hclear : ∀ k ∈ keys, ¬Crossed (entities.map k.value)) :
    Sorted.TransAmong (compareAll keys) entities := by
  induction keys with
  | nil => exact fun a _ b _ c _ _ _ => rfl
  | cons k rest ih =>
    obtain ⟨hk, hrest⟩ := List.forall_mem_cons.mp hclear
    exact (transAmong_compare_iff.mpr hk).lex (ih hrest)

/-- Any two values are compared, a value is level with itself, and a comparison is reversed when its
sides are exchanged; among values it is transitive, and so is being level, exactly if no integer
crosses two instants.  The same holds of entities under any sort keys, as far as the values of each
sort key have no crossing, and then sorting them gives an ascending order. -/
theorem preorder_unless_crossed (values : List NativeValue) (keys : List SortKey)
    (entities : List Entity) :
    (∀ a : NativeValue, a.order a = .eq) ∧
    (∀ a b : NativeValue, b.order a = (a.order b).swap) ∧
    (Sorted.TransAmong NativeValue.order values ↔ ¬Crossed values) ∧
    (¬Crossed values → ∀ a ∈ values, ∀ b ∈ values, ∀ c ∈ values,
      a.order b = .eq → b.order c = .eq → a.order c = .eq) ∧
    (∀ e, compareAll keys e e = .eq) ∧
    (∀ e e', compareAll keys e' e = (compareAll keys e e').swap) ∧
    (∀ k ∈ keys, Sorted.TransAmong (SortKey.compare k) entities ↔
      ¬Crossed (entities.map k.value)) ∧
    ((∀ k ∈ keys, ¬Crossed (entities.map k.value)) →
      Sorted.TransAmong (compareAll keys) entities ∧
      (∀ a ∈ entities, ∀ b ∈ entities, ∀ c ∈ entities, compareAll keys a b = .eq →
        compareAll keys b c = .eq → compareAll keys a c = .eq) ∧
      (Sorted.stable (compareAll keys) entities).Pairwise
        fun a b => (compareAll keys a b).isLE) := by
  refine ⟨fun a => Std.ReflCmp.compare_self, fun a b => Std.OrientedCmp.eq_swap,
    transAmong_order_iff, fun hclear a ha b hb c hc => ?_, fun e => Std.ReflCmp.compare_self,
    fun e e' => Std.OrientedCmp.eq_swap, fun k _ => transAmong_compare_iff, fun hclear => ?_⟩
  · exact (transAmong_order_iff.mpr hclear).eq_trans ha hb hc
  · have htrans := transAmong_compareAll hclear
    exact ⟨htrans, fun a ha b hb c hc => htrans.eq_trans ha hb hc, htrans.stable_pairwise⟩

/-- Parcels with a time of arrival, which some have as an instant and some as microseconds. -/
def arrivals : List Entity :=
  [⟨⟨⟨""⟩, ⟨"parcel"⟩, "a"⟩, SortedMap.ofList [("arrival", .timestamp ⟨3, 500⟩)]⟩,
    ⟨⟨⟨""⟩, ⟨"parcel"⟩, "b"⟩, SortedMap.ofList [("arrival", .integer 3000000)]⟩,
    ⟨⟨⟨""⟩, ⟨"parcel"⟩, "c"⟩, SortedMap.ofList [("arrival", .timestamp ⟨2, 999⟩)]⟩,
    ⟨⟨⟨""⟩, ⟨"parcel"⟩, "d"⟩, SortedMap.ofList [("weight", .double .zero)]⟩]

theorem preorder_unless_crossed_arrivals :
    ¬Crossed (arrivals.map (SortKey.mk "arrival" .descending).value) ∧
      (Sorted.stable (compareAll [⟨"arrival", .descending⟩]) arrivals).Pairwise fun a b =>
        (compareAll [⟨"arrival", .descending⟩] a b).isLE := by
  obtain ⟨-, -, -, -, -, -, -, hsorted⟩ :=
    preorder_unless_crossed [] [⟨"arrival", .descending⟩] arrivals
  have hclear : ∀ k ∈ [SortKey.mk "arrival" .descending], ¬Crossed (arrivals.map k.value) := by
    decide +kernel
  exact ⟨hclear _ (List.mem_singleton_self _), (hsorted hclear).2.2⟩

end SortKey

end DocumentStore
