import DocumentStore.Sorted.Stable
set_option autoImplicit false

/-!
# What the stable sort gives

Under a transitive comparison the result is in ascending order.  Sorting looks at the items through
the comparison alone: items that are compared by what they were made of are sorted as that is.  So
it is enough for the comparison to be transitive among the items that are sorted.
-/

namespace DocumentStore.Sorted

variable {α β : Type}

/-! ## Order -/

-- the list is held latest-first, so that the earlier of two items is the one that comes later
theorem insertLatest_pairwise {cmp : α → α → Ordering} [Std.TransCmp cmp] (x : α) {l : List α}
    (h : l.Pairwise fun a b => (cmp b a).isLE) :
    (insertLatest cmp x l).Pairwise fun a b => (cmp b a).isLE := by
  induction l with
  | nil => exact List.pairwise_singleton ..
  | cons y rest ih =>
    obtain ⟨hy, hrest⟩ := List.pairwise_cons.mp h
    unfold insertLatest
    split
    · next hlt =>
      refine List.pairwise_cons.mpr ⟨fun b hb => ?_, ih hrest⟩
      rcases List.mem_cons.mp ((insertLatest_perm cmp x rest).mem_iff.mp hb) with rfl | hb
      · rw [hlt]
        rfl
      · exact hy b hb
    · next hge =>
      have hyx : (cmp y x).isLE := Std.OrientedCmp.isLE_of_isGE (Ordering.isGE_iff_ne_lt.mpr hge)
      refine List.pairwise_cons.mpr ⟨fun b hb => ?_, h⟩
      rcases List.mem_cons.mp hb with rfl | hb
      · exact hyx
      · exact Std.TransCmp.isLE_trans (hy b hb) hyx

/-- The items are sorted in ascending order. -/
theorem stable_pairwise (cmp : α → α → Ordering) [Std.TransCmp cmp] (xs : List α) :
    (stable cmp xs).Pairwise fun a b => (cmp a b).isLE := by
  have hfold (acc : List α) (hacc : acc.Pairwise fun a b => (cmp b a).isLE) :
      (xs.foldl (fun sorted x => insertLatest cmp x sorted) acc).Pairwise
        fun a b => (cmp b a).isLE := by
    induction xs generalizing acc with
    | nil => exact hacc
    | cons x rest ih => exact ih _ (insertLatest_pairwise x hacc)
  exact List.pairwise_reverse.mpr (hfold [] .nil)

/-! ## Items left out -/

-- an item that is left out would have stopped `x`; what is behind it is no greater than it
theorem insertLatest_filter {cmp : α → α → Ordering} [Std.TransCmp cmp] (test : α → Bool) (x : α)
    {l : List α} (h : l.Pairwise fun a b => (cmp b a).isLE) :
    (insertLatest cmp x l).filter test =
      if test x then insertLatest cmp x (l.filter test) else l.filter test := by
  have hlatest {l : List α} (hall : ∀ y ∈ l, cmp x y ≠ .lt) : insertLatest cmp x l = x :: l := by
    cases l with
    | nil => rfl
    | cons y rest => rw [insertLatest, if_neg (hall y (List.mem_cons_self ..))]
  induction l with
  | nil => cases htest : test x <;> simp [insertLatest, htest]
  | cons y rest ih =>
    obtain ⟨hy, hrest⟩ := List.pairwise_cons.mp h
    rw [insertLatest]
    split
    · next hlt =>
      rw [List.filter_cons, List.filter_cons, ih hrest]
      cases test x <;> cases test y <;> simp [insertLatest, hlt]
    · next hge =>
      have hyx : (cmp y x).isLE := Std.OrientedCmp.isLE_of_isGE (Ordering.isGE_iff_ne_lt.mpr hge)
      have hall : ∀ z ∈ (y :: rest).filter test, cmp x z ≠ .lt := by
        intro z hz
        have hzx : (cmp z x).isLE := by
          rcases List.mem_cons.mp (List.mem_filter.mp hz).1 with rfl | hz
          · exact hyx
          · exact Std.TransCmp.isLE_trans (hy z hz) hyx
        exact Std.OrientedCmp.not_lt_of_isLE hzx
      rw [hlatest hall, List.filter_cons]

/-- Items may be left out before sorting or after it. -/
theorem stable_filter (cmp : α → α → Ordering) [Std.TransCmp cmp] (test : α → Bool) (xs : List α) :
    stable cmp (xs.filter test) = (stable cmp xs).filter test := by
  have hfold (acc : List α) (hacc : acc.Pairwise fun a b => (cmp b a).isLE) :
      (xs.filter test).foldl (fun sorted x => insertLatest cmp x sorted) (acc.filter test) =
        (xs.foldl (fun sorted x => insertLatest cmp x sorted) acc).filter test := by
    induction xs generalizing acc with
    | nil => rfl
    | cons x rest ih =>
      have hnext := ih _ (insertLatest_pairwise x hacc)
      rw [insertLatest_filter test x hacc] at hnext
      rw [List.foldl_cons, ← hnext, List.filter_cons]
      split <;> rfl
  rw [stable, stable, List.filter_reverse]
  exact congrArg List.reverse (hfold [] .nil)

/-! ## Items made of others -/

section Map

variable {cmp : α → α → Ordering} {cmp' : β → β → Ordering} {f : β → α}
  (h : ∀ a b, cmp (f a) (f b) = cmp' a b)

include h

theorem insertLatest_map (x : β) (l : List β) :
    insertLatest cmp (f x) (l.map f) = (insertLatest cmp' x l).map f := by
  induction l with
  | nil => rfl
  | cons y rest ih =>
    simp only [List.map_cons, insertLatest, h, ih]
    split <;> rfl

theorem stable_map (xs : List β) : stable cmp (xs.map f) = (stable cmp' xs).map f := by
  have hfold (acc : List β) :
      (xs.map f).foldl (fun sorted x => insertLatest cmp x sorted) (acc.map f) =
        (xs.foldl (fun sorted x => insertLatest cmp' x sorted) acc).map f := by
    induction xs generalizing acc with
    | nil => rfl
    | cons x rest ih =>
      rw [List.map_cons, List.foldl_cons, List.foldl_cons, insertLatest_map h]
      exact ih _
  rw [stable, stable, List.map_reverse]
  exact congrArg List.reverse (hfold [])

end Map

/-! ## Comparisons that are transitive among some items -/

/-- A comparison is transitive among the items of a list. -/
def TransAmong (cmp : α → α → Ordering) (xs : List α) : Prop :=
  ∀ a ∈ xs, ∀ b ∈ xs, ∀ c ∈ xs, (cmp a b).isLE → (cmp b c).isLE → (cmp a c).isLE

instance (cmp : α → α → Ordering) (xs : List α) : Decidable (TransAmong cmp xs) :=
  inferInstanceAs (Decidable (∀ a ∈ xs, ∀ b ∈ xs, ∀ c ∈ xs,
    (cmp a b).isLE → (cmp b c).isLE → (cmp a c).isLE))

variable {cmp : α → α → Ordering} {xs : List α}

theorem TransAmong.mono {ys : List α} (h : TransAmong cmp xs) (hsub : ys ⊆ xs) :
    TransAmong cmp ys := fun a ha b hb c hc => h a (hsub ha) b (hsub hb) c (hsub hc)

theorem TransAmong.transCmp [Std.OrientedCmp cmp] (h : TransAmong cmp xs) :
    Std.TransCmp fun a b : { x // x ∈ xs } => cmp a.1 b.1 where
  eq_swap := Std.OrientedCmp.eq_swap
  isLE_trans {a b c} := h a.1 a.2 b.1 b.2 c.1 c.2

theorem TransAmong.stable_pairwise [Std.OrientedCmp cmp] (h : TransAmong cmp xs) :
    (stable cmp xs).Pairwise fun a b => (cmp a b).isLE := by
  have := h.transCmp
  have hattach : stable cmp xs =
      (stable (fun a b : { x // x ∈ xs } => cmp a.1 b.1) xs.attach).map Subtype.val := by
    rw [← stable_map fun _ _ => rfl, List.attach_map_subtype_val]
  rw [hattach]
  exact List.pairwise_map.mpr (Sorted.stable_pairwise _ _)

/-- A comparison that tells no items apart leaves them as they are. -/
theorem stable_eq (h : ∀ a b, cmp a b ≠ .lt) (xs : List α) : stable cmp xs = xs := by
  have hinsert (x : α) (l : List α) : insertLatest cmp x l = x :: l := by
    cases l with
    | nil => rfl
    | cons y rest => rw [insertLatest, if_neg (h x y)]
  simp only [stable, hinsert]
  rw [List.foldl_flip_cons_eq_append', List.append_nil, List.reverse_reverse]

end DocumentStore.Sorted
