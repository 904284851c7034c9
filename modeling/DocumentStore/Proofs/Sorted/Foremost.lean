import DocumentStore.Proofs.Sorted.Stable
import Mathlib.Data.List.Perm.Subperm
set_option autoImplicit false

/-!
# The foremost items of an order

Cutting a sorted list leaves its foremost items.  They can also be found in parts that overlap: the
foremost items of what the parts' foremost items are together are those of all the items.  For if an
item is not among the foremost of its part then these are as many as are asked for, and none of them
comes after it.
-/

namespace DocumentStore.Sorted

variable {α : Type}

/-- At most `count` items of a list in ascending order, with no item left out that is less than one of
them. -/
structure Foremost (cmp : α → α → Ordering) (count : Nat) (all chosen : List α) : Prop where
  nodup : chosen.Nodup
  subset : chosen ⊆ all
  length : chosen.length = min count all.length
  ascending : chosen.Pairwise fun a b => (cmp a b).isLE
  least : ∀ a ∈ all, a ∉ chosen → ∀ b ∈ chosen, cmp a b ≠ .lt

variable {cmp : α → α → Ordering} {count : Nat} {all found chosen : List α}

namespace Foremost

/-- Only which items there are matters. -/
theorem of_perm (h : Foremost cmp count found chosen) (hperm : found.Perm all) :
    Foremost cmp count all chosen where
  nodup := h.nodup
  subset _ ha := hperm.mem_iff.mp (h.subset ha)
  length := by rw [h.length, hperm.length_eq]
  ascending := h.ascending
  least a ha := h.least a (hperm.mem_iff.mpr ha)

theorem of_sorted [Std.OrientedCmp cmp] {sorted : List α} (hnodup : sorted.Nodup)
    (hsorted : sorted.Pairwise fun a b => (cmp a b).isLE) (count : Nat) :
    Foremost cmp count sorted (sorted.take count) where
  nodup := hnodup.sublist (List.take_sublist ..)
  subset := List.take_subset ..
  length := List.length_take
  ascending := hsorted.sublist (List.take_sublist ..)
  least a ha hleft b hb := by
    rw [← List.take_append_drop count sorted] at ha hsorted
    have hdrop : a ∈ sorted.drop count := (List.mem_append.mp ha).resolve_left hleft
    exact Std.OrientedCmp.not_lt_of_isLE ((List.pairwise_append.mp hsorted).2.2 b hb a hdrop)

/-- The beginning of a sorted list. -/
theorem stable [Std.OrientedCmp cmp] (hnodup : all.Nodup) (htrans : TransAmong cmp all)
    (count : Nat) : Foremost cmp count all ((Sorted.stable cmp all).take count) :=
  of_perm (of_sorted ((stable_perm cmp all).nodup_iff.mpr hnodup) htrans.stable_pairwise count)
    (stable_perm cmp all)

/-- If an item is not among the foremost, these are as many as were asked for. -/
theorem length_of_not_mem (h : Foremost cmp count all chosen) {a : α} (ha : a ∈ all)
    (hleft : a ∉ chosen) : chosen.length = count := by
  have hlt : chosen.length < all.length := by
    by_contra hge
    have hperm : chosen.Perm all :=
      (h.nodup.subperm h.subset).perm_of_length_le (Nat.le_of_not_lt hge)
    exact hleft (hperm.mem_iff.mpr ha)
  have hlength := h.length
  omega

variable {parts : List (List α)}

-- an item that was left out of its part is no less than the foremost of the part; if it were less
-- than a chosen item, they would all be chosen and, being as many, that item would be one of them
theorem least_of_parts [Std.OrientedCmp cmp] (h : Foremost cmp count found chosen)
    (hfound : found ⊆ all)
    (hparts : ∀ part ∈ parts, ∃ first, Foremost cmp count part first ∧ first ⊆ found)
    (hall : ∀ a ∈ all, ∃ part ∈ parts, a ∈ part ∧ part ⊆ all) (htrans : TransAmong cmp all) :
    ∀ a ∈ all, a ∉ chosen → ∀ b ∈ chosen, cmp a b ≠ .lt := by
  intro a ha hleft b hb hlt
  obtain ⟨part, hpart, hmem, hsub⟩ := hall a ha
  obtain ⟨first, hfirst, hfirstFound⟩ := hparts part hpart
  by_cases hafound : a ∈ found
  · exact h.least a hafound hleft b hb hlt
  · have haleft : a ∉ first := fun hin => hafound (hfirstFound hin)
    have hchosen : first ⊆ chosen := by
      intro x hx
      by_contra hxleft
      have hxa : (cmp x a).isLE :=
        Std.OrientedCmp.isLE_of_isGE (Ordering.isGE_iff_ne_lt.mpr (hfirst.least a hmem haleft x hx))
      have hbx : (cmp b x).isLE := Std.OrientedCmp.isLE_of_isGE
        (Ordering.isGE_iff_ne_lt.mpr (h.least x (hfirstFound hx) hxleft b hb))
      have hba : (cmp b a).isLE :=
        htrans b (hfound (h.subset hb)) x (hfound (hfirstFound hx)) a ha hbx hxa
      exact Std.OrientedCmp.not_lt_of_isLE hba hlt
    have hperm : first.Perm chosen := by
      refine (hfirst.nodup.subperm hchosen).perm_of_length_le ?_
      rw [hfirst.length_of_not_mem hmem haleft, h.length]
      exact Nat.min_le_left ..
    exact hfirst.least a hmem haleft b (hperm.mem_iff.mpr hb) hlt

/-- The foremost of several parts together: each part may have been cut before. -/
theorem of_parts [Std.OrientedCmp cmp] (parts : List (List α)) (h : Foremost cmp count found chosen)
    (hnodup : found.Nodup) (hfound : found ⊆ all)
    (hparts : ∀ part ∈ parts, ∃ first, Foremost cmp count part first ∧ first ⊆ found)
    (hall : ∀ a ∈ all, ∃ part ∈ parts, a ∈ part ∧ part ⊆ all) (hnodupAll : all.Nodup)
    (htrans : TransAmong cmp all) : Foremost cmp count all chosen where
  nodup := h.nodup
  subset := fun _ ha => hfound (h.subset ha)
  ascending := h.ascending
  least := h.least_of_parts hfound hparts hall htrans
  length := by
    have hle : found.length ≤ all.length := (hnodup.subperm hfound).length_le
    have hlength := h.length
    rcases Nat.lt_or_ge found.length count with hfew | hmany
    · -- no part was cut, so all the items were found
      have hfull : all ⊆ found := by
        intro a ha
        obtain ⟨part, hpart, hmem, -⟩ := hall a ha
        obtain ⟨first, hfirst, hfirstFound⟩ := hparts part hpart
        by_contra hleft
        have hcount := hfirst.length_of_not_mem hmem fun hin => hleft (hfirstFound hin)
        have := (hfirst.nodup.subperm hfirstFound).length_le
        omega
      have := (hnodupAll.subperm hfull).length_le
      omega
    · omega

end Foremost

end DocumentStore.Sorted
