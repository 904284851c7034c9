set_option autoImplicit false

/-!
# Finite maps kept in key order

A document's properties are listed by name and a store's documents by key, so a finite map here is
its list of entries in strictly ascending key order.  The order is part of the type, which makes
the representation unique: `ext_get?` says that two maps with the same look-ups are equal.
-/

namespace DocumentStore

/-- A finite map as its entries in strictly ascending key order. -/
structure SortedMap (κ ν : Type) [Ord κ] where
  entries : List (κ × ν)
  ascending : entries.Pairwise fun a b => compare a.1 b.1 = .lt
  deriving DecidableEq

namespace SortedMap

variable {κ ν : Type} [Ord κ]

/-- The map without entries. -/
def empty : SortedMap κ ν := ⟨[], .nil⟩

instance : EmptyCollection (SortedMap κ ν) := ⟨empty⟩

instance : Inhabited (SortedMap κ ν) := ⟨empty⟩

/-- The entries with `k` bound to `v`, a previous entry of `k` replaced. -/
def insertEntry (k : κ) (v : ν) : List (κ × ν) → List (κ × ν)
  | [] => [(k, v)]
  | (k', v') :: rest =>
    match compare k k' with
    | .lt => (k, v) :: (k', v') :: rest
    | .eq => (k, v) :: rest
    | .gt => (k', v') :: insertEntry k v rest

/-- The entries without one for `k`. -/
def eraseEntry (k : κ) : List (κ × ν) → List (κ × ν)
  | [] => []
  | (k', v') :: rest =>
    match compare k k' with
    | .lt => (k', v') :: rest
    | .eq => rest
    | .gt => (k', v') :: eraseEntry k rest

/-- The value bound to `k` in a list of entries. -/
def lookupEntry (k : κ) : List (κ × ν) → Option ν
  | [] => none
  | (k', v') :: rest =>
    match compare k k' with
    | .lt => none
    | .eq => some v'
    | .gt => lookupEntry k rest

theorem mem_insertEntry {k : κ} {v : ν} {e : κ × ν} {l : List (κ × ν)}
    (h : e ∈ insertEntry k v l) : e = (k, v) ∨ e ∈ l := by
  induction l with
  | nil => simpa [insertEntry] using h
  | cons hd tl ih =>
    obtain ⟨k', v'⟩ := hd
    simp only [insertEntry] at h
    split at h <;> grind

theorem mem_of_mem_eraseEntry {k : κ} {e : κ × ν} {l : List (κ × ν)}
    (h : e ∈ eraseEntry k l) : e ∈ l := by
  induction l with
  | nil => simp [eraseEntry] at h
  | cons hd tl ih =>
    obtain ⟨k', v'⟩ := hd
    simp only [eraseEntry] at h
    split at h <;> grind

theorem insertEntry_ascending [Std.TransOrd κ] (k : κ) (v : ν) {l : List (κ × ν)}
    (h : l.Pairwise fun a b => compare a.1 b.1 = .lt) :
    (insertEntry k v l).Pairwise fun a b => compare a.1 b.1 = .lt := by
  induction l with
  | nil => simp [insertEntry]
  | cons hd tl ih =>
    obtain ⟨k', v'⟩ := hd
    obtain ⟨hhd, htl⟩ := List.pairwise_cons.mp h
    simp only [insertEntry]
    split
    · next hlt =>
      refine List.pairwise_cons.mpr ⟨fun e he => ?_, h⟩
      rcases List.mem_cons.mp he with rfl | he
      · exact hlt
      · exact Std.TransCmp.lt_trans hlt (hhd e he)
    · next heq =>
      refine List.pairwise_cons.mpr ⟨fun e he => ?_, htl⟩
      exact (Std.TransCmp.congr_left heq).trans (hhd e he)
    · next hgt =>
      refine List.pairwise_cons.mpr ⟨fun e he => ?_, ih htl⟩
      rcases mem_insertEntry he with rfl | he
      · exact Std.OrientedCmp.lt_of_gt hgt
      · exact hhd e he

theorem eraseEntry_ascending (k : κ) {l : List (κ × ν)}
    (h : l.Pairwise fun a b => compare a.1 b.1 = .lt) :
    (eraseEntry k l).Pairwise fun a b => compare a.1 b.1 = .lt := by
  induction l with
  | nil => simp [eraseEntry]
  | cons hd tl ih =>
    obtain ⟨k', v'⟩ := hd
    obtain ⟨hhd, htl⟩ := List.pairwise_cons.mp h
    simp only [eraseEntry]
    split
    · exact h
    · exact htl
    · exact List.pairwise_cons.mpr ⟨fun e he => hhd e (mem_of_mem_eraseEntry he), ih htl⟩

/-- Binds `k` to `v`, replacing a previous binding. -/
def insert [Std.TransOrd κ] (m : SortedMap κ ν) (k : κ) (v : ν) : SortedMap κ ν :=
  ⟨insertEntry k v m.entries, insertEntry_ascending k v m.ascending⟩

/-- Removes the binding of `k`, if there is one. -/
def erase (m : SortedMap κ ν) (k : κ) : SortedMap κ ν :=
  ⟨eraseEntry k m.entries, eraseEntry_ascending k m.ascending⟩

/-- The value bound to `k`. -/
def get? (m : SortedMap κ ν) (k : κ) : Option ν := lookupEntry k m.entries

/-- Whether `k` is bound. -/
def contains (m : SortedMap κ ν) (k : κ) : Bool := (m.get? k).isSome

/-- The number of bindings. -/
def size (m : SortedMap κ ν) : Nat := m.entries.length

/-- The bound keys, ascending. -/
def keys (m : SortedMap κ ν) : List κ := m.entries.map (·.1)

/-- The map of a list of bindings, in which a later one replaces an earlier one of the same key. -/
def ofList [Std.TransOrd κ] (l : List (κ × ν)) : SortedMap κ ν :=
  l.foldl (fun m e => m.insert e.1 e.2) ∅

theorem length_insertEntry_le (k : κ) (v : ν) (l : List (κ × ν)) :
    (insertEntry k v l).length ≤ l.length + 1 := by
  induction l with
  | nil => exact Nat.le_refl _
  | cons hd tl ih =>
    obtain ⟨k', v'⟩ := hd
    simp only [insertEntry]
    split
    · exact Nat.le_refl _
    · exact Nat.le_succ _
    · exact Nat.succ_le_succ ih

theorem size_insert_le [Std.TransOrd κ] (m : SortedMap κ ν) (k : κ) (v : ν) :
    (m.insert k v).size ≤ m.size + 1 :=
  length_insertEntry_le k v m.entries

/-! ## Look-ups -/

@[simp] theorem get?_empty (k : κ) : (∅ : SortedMap κ ν).get? k = none := rfl

theorem lookupEntry_insertEntry [Std.TransOrd κ] [Std.LawfulEqOrd κ] [DecidableEq κ] (k k' : κ) (v : ν)
    (l : List (κ × ν)) :
    lookupEntry k' (insertEntry k v l) = if k' = k then some v else lookupEntry k' l := by
  induction l with
  | nil =>
    by_cases hk : k' = k
    · subst hk; simp [insertEntry, lookupEntry]
    · have : compare k' k ≠ .eq := fun h => hk (Std.LawfulEqOrd.eq_of_compare h)
      simp only [insertEntry, lookupEntry, if_neg hk]
      cases hc : compare k' k <;> simp_all
  | cons hd tl ih =>
    obtain ⟨a, va⟩ := hd
    by_cases hk : k' = k
    · subst hk
      simp only [insertEntry, if_true]
      split
      · simp [lookupEntry]
      · simp [lookupEntry]
      · next hgt => simp [lookupEntry, hgt, ih]
    · simp only [insertEntry, if_neg hk] at ih ⊢
      have hne : compare k' k ≠ .eq := fun h => hk (Std.LawfulEqOrd.eq_of_compare h)
      split
      · next hlt =>
        simp only [lookupEntry]
        cases hc : compare k' k
        · have := Std.TransCmp.lt_trans hc hlt
          simp [this]
        · exact absurd hc hne
        · rfl
      · next heq =>
        have := Std.LawfulEqOrd.eq_of_compare heq
        subst this
        simp only [lookupEntry]
        cases hc : compare k' k <;> simp_all
      · next hgt => simp only [lookupEntry, ih]

theorem get?_insert [Std.TransOrd κ] [Std.LawfulEqOrd κ] [DecidableEq κ] (m : SortedMap κ ν)
    (k k' : κ) (v : ν) :
    (m.insert k v).get? k' = if k' = k then some v else m.get? k' :=
  lookupEntry_insertEntry k k' v m.entries

/-- Below the least key nothing is found. -/
theorem lookupEntry_eq_none_of_lt [Std.TransOrd κ] {k : κ} {l : List (κ × ν)}
    (h : ∀ e ∈ l, compare k e.1 = .lt) : lookupEntry k l = none := by
  cases l with
  | nil => rfl
  | cons hd tl => simp [lookupEntry, h hd (by simp)]

theorem lookupEntry_eraseEntry [Std.TransOrd κ] [Std.LawfulEqOrd κ] [DecidableEq κ] (k k' : κ)
    {l : List (κ × ν)} (hl : l.Pairwise fun a b => compare a.1 b.1 = .lt) :
    lookupEntry k' (eraseEntry k l) = if k' = k then none else lookupEntry k' l := by
  induction l with
  | nil => simp [eraseEntry, lookupEntry]
  | cons hd tl ih =>
    obtain ⟨a, va⟩ := hd
    obtain ⟨hhd, htl⟩ := List.pairwise_cons.mp hl
    have ih := ih htl
    by_cases hk : k' = k
    · subst hk
      simp only [eraseEntry, if_true] at ih ⊢
      split
      · next hlt => simp [lookupEntry, hlt]
      · next heq =>
        have := Std.LawfulEqOrd.eq_of_compare heq
        subst this
        exact lookupEntry_eq_none_of_lt hhd
      · next hgt => simp [lookupEntry, hgt, ih]
    · simp only [eraseEntry, if_neg hk] at ih ⊢
      split
      · rfl
      · next heq =>
        have := Std.LawfulEqOrd.eq_of_compare heq
        subst this
        have hne : compare k' k ≠ .eq := fun h => hk (Std.LawfulEqOrd.eq_of_compare h)
        simp only [lookupEntry]
        cases hc : compare k' k
        · exact lookupEntry_eq_none_of_lt fun e he => Std.TransCmp.lt_trans hc (hhd e he)
        · exact absurd hc hne
        · rfl
      · simp only [lookupEntry, ih]

theorem get?_erase [Std.TransOrd κ] [Std.LawfulEqOrd κ] [DecidableEq κ] (m : SortedMap κ ν) (k k' : κ) :
    (m.erase k).get? k' = if k' = k then none else m.get? k' :=
  lookupEntry_eraseEntry k k' m.ascending

theorem lookupEntry_eq_some_iff [Std.TransOrd κ] [Std.LawfulEqOrd κ] {k : κ} {v : ν}
    {l : List (κ × ν)} (hl : l.Pairwise fun a b => compare a.1 b.1 = .lt) :
    lookupEntry k l = some v ↔ (k, v) ∈ l := by
  induction l with
  | nil => simp [lookupEntry]
  | cons hd tl ih =>
    obtain ⟨a, va⟩ := hd
    obtain ⟨hhd, htl⟩ := List.pairwise_cons.mp hl
    simp only [lookupEntry]
    split
    · next hlt =>
      constructor
      · intro h; cases h
      · intro h
        rcases List.mem_cons.mp h with h | h
        · obtain ⟨rfl, rfl⟩ := Prod.mk.injEq .. ▸ h
          simp at hlt
        · have := Std.TransCmp.lt_trans hlt (hhd _ h)
          simp at this
    · next heq =>
      have := Std.LawfulEqOrd.eq_of_compare heq
      subst this
      constructor
      · intro h; cases h; simp
      · intro h
        rcases List.mem_cons.mp h with h | h
        · obtain ⟨-, rfl⟩ := Prod.mk.injEq .. ▸ h
          rfl
        · have := hhd _ h
          simp at this
    · next hgt =>
      rw [ih htl]
      constructor
      · exact List.mem_cons_of_mem _
      · intro h
        rcases List.mem_cons.mp h with h | h
        · obtain ⟨rfl, rfl⟩ := Prod.mk.injEq .. ▸ h
          simp at hgt
        · exact h

/-- A key is bound to a value exactly when that entry is listed. -/
theorem get?_eq_some_iff [Std.TransOrd κ] [Std.LawfulEqOrd κ] {m : SortedMap κ ν} {k : κ} {v : ν} :
    m.get? k = some v ↔ (k, v) ∈ m.entries :=
  lookupEntry_eq_some_iff m.ascending

/-- Two maps with the same look-ups are the same map. -/
theorem ext_get? [Std.TransOrd κ] [Std.LawfulEqOrd κ] {m n : SortedMap κ ν}
    (h : ∀ k, m.get? k = n.get? k) : m = n := by
  have hmem : ∀ e : κ × ν, e ∈ m.entries ↔ e ∈ n.entries := fun ⟨k, v⟩ => by
    rw [← get?_eq_some_iff, ← get?_eq_some_iff, h k]
  have hnodup : ∀ {l : List (κ × ν)}, (l.Pairwise fun a b => compare a.1 b.1 = .lt) → l.Nodup :=
    fun hl => hl.imp fun {a b} hab hEq => by subst hEq; simp at hab
  have hperm : m.entries.Perm n.entries :=
    (List.perm_ext_iff_of_nodup (hnodup m.ascending) (hnodup n.ascending)).mpr hmem
  have : m.entries = n.entries :=
    hperm.eq_of_pairwise
      (fun a b _ _ hab hba => by
        have := Std.TransCmp.lt_trans hab hba
        simp at this)
      m.ascending n.ascending
  cases m; cases n; simp_all

/-! ## Maps of lists -/

section OfList

variable [Std.TransOrd κ] [Std.LawfulEqOrd κ] [DecidableEq κ]

/-- Ascending entries inserted into a map stand in front of what it held. -/
theorem get?_foldl_insert {l : List (κ × ν)} (hl : l.Pairwise fun a b => compare a.1 b.1 = .lt)
    (m : SortedMap κ ν) (k : κ) :
    (l.foldl (fun m e => m.insert e.1 e.2) m).get? k = (lookupEntry k l).or (m.get? k) := by
  induction l generalizing m with
  | nil => simp [lookupEntry]
  | cons hd tl ih =>
    obtain ⟨a, va⟩ := hd
    obtain ⟨hhd, htl⟩ := List.pairwise_cons.mp hl
    rw [List.foldl_cons, ih htl, get?_insert]
    have hne : compare k a ≠ .eq → k ≠ a := by
      intro hc heq
      subst heq
      exact hc Std.ReflCmp.compare_self
    cases hc : compare k a with
    | lt =>
      have hnone : lookupEntry k tl = none :=
        lookupEntry_eq_none_of_lt fun e he => Std.TransCmp.lt_trans hc (hhd e he)
      simp [lookupEntry, hc, hnone, hne (by simp [hc])]
    | eq =>
      have hka := Std.LawfulEqOrd.eq_of_compare hc
      subst hka
      have hnone : lookupEntry k tl = none := lookupEntry_eq_none_of_lt hhd
      simp [lookupEntry, hnone]
    | gt => simp [lookupEntry, hc, hne (by simp [hc])]

/-- A map is the map of its entries. -/
theorem ofList_entries (m : SortedMap κ ν) : ofList m.entries = m := by
  apply ext_get?
  intro k
  rw [ofList, get?_foldl_insert m.ascending, get?_empty, Option.or_none]
  rfl

end OfList

end SortedMap

end DocumentStore
