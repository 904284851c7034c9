set_option autoImplicit false

/-!
# Stable sorting by a comparison

Query results and listed values are sorted by a three-way comparison; values that compare equal
keep their order.  The sort inserts the items one after another, each moved left past exactly the
items it compares less than until one stops it.  For a comparison that is not transitive this still
fixes one result.
-/

namespace DocumentStore.Sorted

variable {α : Type}

/-- Puts `x` into a list held latest-first, below every item it is less than. -/
def insertLatest (cmp : α → α → Ordering) (x : α) : List α → List α
  | [] => [x]
  | y :: rest => if cmp x y = .lt then y :: insertLatest cmp x rest else x :: y :: rest

/-- The items in ascending order of `cmp`, equal ones in their given order. -/
def stable (cmp : α → α → Ordering) (xs : List α) : List α :=
  (xs.foldl (fun sorted x => insertLatest cmp x sorted) []).reverse

theorem insertLatest_perm (cmp : α → α → Ordering) (x : α) (l : List α) :
    (insertLatest cmp x l).Perm (x :: l) := by
  induction l with
  | nil => exact .refl _
  | cons y rest ih =>
    simp only [insertLatest]
    split
    · exact (ih.cons y).trans (.swap x y rest)
    · exact .refl _

theorem foldl_insertLatest_perm (cmp : α → α → Ordering) (xs acc : List α) :
    (xs.foldl (fun sorted x => insertLatest cmp x sorted) acc).Perm (xs ++ acc) := by
  induction xs generalizing acc with
  | nil => exact .refl _
  | cons x xs ih =>
    exact (ih _).trans (((insertLatest_perm cmp x acc).append_left xs).trans List.perm_middle)

/-- Sorting only reorders. -/
theorem stable_perm (cmp : α → α → Ordering) (xs : List α) : (stable cmp xs).Perm xs := by
  have h := foldl_insertLatest_perm cmp xs []
  rw [List.append_nil] at h
  exact (List.reverse_perm _).trans h

theorem length_stable (cmp : α → α → Ordering) (xs : List α) :
    (stable cmp xs).length = xs.length :=
  (stable_perm cmp xs).length_eq

end DocumentStore.Sorted
