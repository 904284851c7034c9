import DocumentStore.Proofs.Store.Writes
import Mathlib.Data.List.Perm.Basic
set_option autoImplicit false

/-!
# The last write of each key

Of several items with the same key `lastBy` keeps the last.  Entities that are put in one after another
leave, of each key, the last entity with it, and documents of other keys as they were.
-/

namespace DocumentStore

variable {α β γ δ : Type} [DecidableEq β] [DecidableEq δ]

/-- The items of which no later one has the same `f`, in order. -/
def lastBy (f : α → β) : List α → List α
  | [] => []
  | a :: rest => if rest.any (f · = f a) then lastBy f rest else a :: lastBy f rest

section LastBy

variable {f : α → β}

theorem lastBy_cons (f : α → β) (a : α) (rest : List α) :
    lastBy f (a :: rest) = if rest.any (f · = f a) then lastBy f rest else a :: lastBy f rest := rfl

theorem mem_of_mem_lastBy {a : α} {l : List α} (h : a ∈ lastBy f l) : a ∈ l := by
  induction l with
  | nil => exact h
  | cons b rest ih =>
    rw [lastBy_cons] at h
    split at h
    · exact List.mem_cons_of_mem _ (ih h)
    · rcases List.mem_cons.mp h with rfl | h
      · exact List.mem_cons_self ..
      · exact List.mem_cons_of_mem _ (ih h)

theorem nodup_map_lastBy (f : α → β) (l : List α) : ((lastBy f l).map f).Nodup := by
  induction l with
  | nil => exact .nil
  | cons a rest ih =>
    rw [lastBy_cons]
    split
    · exact ih
    · next hnone =>
      refine List.nodup_cons.mpr ⟨fun hmem => ?_, ih⟩
      obtain ⟨b, hb, heq⟩ := List.mem_map.mp hmem
      exact hnone (List.any_eq_true.mpr ⟨b, mem_of_mem_lastBy hb, decide_eq_true heq⟩)

/-- Items made of others are the last ones if those are. -/
theorem lastBy_map {g : γ → α} {h : γ → δ} (hgh : ∀ a b, f (g a) = f (g b) ↔ h a = h b)
    (l : List γ) : lastBy f (l.map g) = (lastBy h l).map g := by
  induction l with
  | nil => rfl
  | cons a rest ih =>
    simp only [List.map_cons, lastBy, List.any_map, Function.comp_def, hgh, ih]
    split <;> rfl

/-- Items with different `f` are all kept. -/
theorem lastBy_of_nodup {l : List α} (h : (l.map f).Nodup) : lastBy f l = l := by
  induction l with
  | nil => rfl
  | cons a rest ih =>
    obtain ⟨hnew, hrest⟩ := List.nodup_cons.mp h
    rw [lastBy_cons, if_neg, ih hrest]
    intro hany
    obtain ⟨b, hb, heq⟩ := List.any_eq_true.mp hany
    exact hnew (of_decide_eq_true heq ▸ List.mem_map_of_mem hb)

/-- What is kept of items that more come after. -/
theorem mem_lastBy_append {a : α} {l m : List α} :
    a ∈ lastBy f (l ++ m) ↔ a ∈ lastBy f m ∨ a ∈ lastBy f l ∧ ∀ b ∈ m, f b ≠ f a := by
  induction l with
  | nil => simp [lastBy]
  | cons c rest ih =>
    have hany : (rest ++ m).any (f · = f c) = (rest.any (f · = f c) || m.any (f · = f c)) :=
      List.any_append
    rw [List.cons_append, lastBy_cons, lastBy_cons, hany]
    by_cases hrest : rest.any (f · = f c) = true
    · rw [hrest, Bool.true_or, if_pos rfl, if_pos rfl]
      exact ih
    · rw [Bool.eq_false_iff.mpr hrest, Bool.false_or, if_neg Bool.false_ne_true, List.mem_cons]
      split
      · next hlater =>
        obtain ⟨b, hb, heq⟩ := List.any_eq_true.mp hlater
        rw [ih]
        refine or_congr_right (and_congr_left fun hnone => (or_iff_right ?_).symm)
        rintro rfl
        exact hnone b hb (of_decide_eq_true heq)
      · next hlast =>
        have hnone : ∀ b ∈ m, f b ≠ f c := fun b hb heq =>
          hlast (List.any_eq_true.mpr ⟨b, hb, decide_eq_true heq⟩)
        rw [List.mem_cons, ih]
        constructor
        · rintro (rfl | hm | ⟨hl, hno⟩)
          · exact .inr ⟨.inl rfl, hnone⟩
          · exact .inl hm
          · exact .inr ⟨.inr hl, hno⟩
        · rintro (hm | ⟨rfl | hl, hno⟩)
          · exact .inr (.inl hm)
          · exact .inl rfl
          · exact .inr (.inr ⟨hl, hno⟩)

end LastBy

/-- A reordering of a list that was made of another one item by item was made of a reordering of it. -/
theorem exists_perm_of_perm_map {f : α → γ} {l : List α} {m : List γ} (h : m.Perm (l.map f)) :
    ∃ l' : List α, l'.Perm l ∧ m = l'.map f := by
  have hforall : List.Forall₂ (fun c a => c = f a) (l.map f) l :=
    List.forall₂_map_left_iff.mpr (List.forall₂_same.mpr fun _ _ => rfl)
  obtain ⟨l', hm, hl'⟩ := List.perm_comp_forall₂ h hforall
  refine ⟨l', hl', ?_⟩
  have heq := List.forall₂_map_right_iff (R := Eq) (f := f) |>.mpr hm
  rwa [List.forall₂_eq_eq_eq] at heq

/-- After entities were put in, a key has the last of them with that key, and if there is none what it
had before. -/
theorem Write.get?_applyAll_ofEntities {documents : SortedMap Key Properties} {batch : List Entity}
    {e : Entity} :
    (applyAll documents (ofEntities batch)).get? e.key = some e.properties ↔
      e ∈ lastBy Entity.key batch ∨
        (∀ b ∈ batch, b.key ≠ e.key) ∧ documents.get? e.key = some e.properties := by
  induction batch generalizing documents with
  | nil => simp [ofEntities, lastBy]
  | cons b rest ih =>
    have hstep : applyAll documents (ofEntities (b :: rest)) =
        applyAll (Staging.applyWrite documents b.key (some b.properties)) (ofEntities rest) := rfl
    rw [hstep, ih, get?_applyWrite documents (b.key, some b.properties), List.forall_mem_cons,
      lastBy_cons]
    dsimp only
    by_cases hlater : ∃ b' ∈ rest, b'.key = b.key
    · obtain ⟨b', hb', heq⟩ := hlater
      rw [if_pos (List.any_eq_true.mpr ⟨b', hb', decide_eq_true heq⟩)]
      apply or_congr_right
      constructor
      · rintro ⟨hrest, hget⟩
        have hne : b.key ≠ e.key := fun h => hrest b' hb' (heq.trans h)
        rw [if_neg (Ne.symm hne)] at hget
        exact ⟨⟨hne, hrest⟩, hget⟩
      · rintro ⟨⟨hne, hrest⟩, hget⟩
        rw [if_neg (Ne.symm hne)]
        exact ⟨hrest, hget⟩
    · have hlast : ∀ b' ∈ rest, b'.key ≠ b.key := fun b' hb' heq => hlater ⟨b', hb', heq⟩
      have hany : ¬rest.any (fun b' => decide (b'.key = b.key)) = true := by
        simpa [List.any_eq_true] using hlast
      rw [if_neg hany, List.mem_cons]
      by_cases hkey : e.key = b.key
      · have heq : b.properties = e.properties ↔ e = b := by
          constructor
          · intro h
            calc e = ⟨e.key, e.properties⟩ := rfl
              _ = ⟨b.key, b.properties⟩ := by rw [hkey, h]
          · rintro rfl
            rfl
        rw [if_pos hkey, Option.some.injEq, heq]
        constructor
        · rintro (hmem | ⟨-, hb⟩)
          · exact .inl (.inr hmem)
          · exact .inl (.inl hb)
        · rintro ((hb | hmem) | ⟨⟨hne, -⟩, -⟩)
          · exact .inr ⟨hkey ▸ hlast, hb⟩
          · exact .inl hmem
          · exact absurd hkey.symm hne
      · have hne : e ≠ b := fun h => hkey (congrArg Entity.key h)
        simp [if_neg hkey, hne, Ne.symm hkey]

end DocumentStore
