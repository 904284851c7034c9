import DocumentStore.Tenancy.Naming
import Mathlib.Data.Set.Function
set_option autoImplicit false

/-!
# Which names are read back

Escaping and reading back are inverse to each other except where a reserved sequence is in the text
from the start, or comes about because an at sign follows most of one.  So the computed names that are
accepted and the namespaces whose names have no at sign belong together one to one, as
`Namespace.encoded_bijOn` says.
-/

namespace DocumentStore

namespace Naming

/-- The text in which an at sign lends its first hyphen to a reserved sequence. -/
def meeting : List Char := ['-', 'a', 't', '@']

/-- Whether a text, once escaped, has a reserved sequence that no at sign was written as. -/
def Ambiguous (s : List Char) : Prop := reserved <:+: s ∨ meeting <:+: s

/-- Whether the reserved sequence that is read first was not written for an at sign. -/
def Slips (s : List Char) : Prop := reserved <+: s ∨ meeting <+: s

theorem not_ambiguous_nil : ¬Ambiguous [] := by
  simp only [Ambiguous, List.infix_nil, reserved, meeting, reduceCtorEq, or_self, not_false_eq_true]

theorem ambiguous_cons {c : Char} {rest : List Char} :
    Ambiguous (c :: rest) ↔ Slips (c :: rest) ∨ Ambiguous rest := by
  simp only [Ambiguous, Slips, List.infix_cons_iff]
  exact or_or_or_comm

theorem not_slips_at (rest : List Char) : ¬Slips ('@' :: rest) := by
  simp [Slips, reserved, meeting]

/-! ## Reading -/

theorem unescape_reserved (rest : List Char) : unescape (reserved ++ rest) = '@' :: unescape rest :=
  unescape.eq_1 rest

theorem unescape_cons {c : Char} {rest : List Char} (h : ¬reserved <+: c :: rest) :
    unescape (c :: rest) = c :: unescape rest := by
  rw [unescape.eq_2]
  rintro tail rfl rfl
  exact h (List.prefix_append reserved tail)

theorem hasReserved_cons {c : Char} {rest : List Char} (h : ¬reserved <+: c :: rest) :
    hasReserved (c :: rest) = hasReserved rest := by
  rw [hasReserved.eq_2]
  rintro tail rfl rfl
  exact h (List.prefix_append reserved tail)

theorem hasReserved_iff (s : List Char) : hasReserved s = true ↔ reserved <:+: s := by
  induction s with
  | nil => simp [hasReserved, reserved]
  | cons c rest ih =>
    rw [List.infix_cons_iff]
    by_cases h : reserved <+: c :: rest
    · obtain ⟨tail, htail⟩ := h
      have hread : hasReserved (c :: rest) = true := by
        rw [← htail]
        exact hasReserved.eq_1 tail
      exact iff_of_true hread (.inl ⟨tail, htail⟩)
    · rw [hasReserved_cons h, ih, or_iff_right h]

/-! ## Writing -/

theorem escape_cons {c : Char} (h : c ≠ '@') (rest : List Char) :
    escape (c :: rest) = c :: escape rest := by
  rw [escape, if_neg h]

theorem escape_at (rest : List Char) : escape ('@' :: rest) = reserved ++ escape rest := rfl

theorem at_not_mem_escape (s : List Char) : '@' ∉ escape s := by
  induction s with
  | nil => exact List.not_mem_nil
  | cons c rest ih =>
    by_cases h : c = '@'
    · subst h
      rw [escape_at, List.mem_append, not_or]
      exact ⟨by decide, ih⟩
    · rw [escape_cons h, List.mem_cons, not_or]
      exact ⟨fun hc => h hc.symm, ih⟩

/-- An escaped text begins with a hyphen if the text begins with one, or with an at sign. -/
theorem hyphen_prefix_escape (s : List Char) :
    ['-'] <+: escape s ↔ ['-'] <+: s ∨ ['@'] <+: s := by
  cases s with
  | nil => simp [escape]
  | cons c rest =>
    by_cases h : c = '@'
    · subst h
      simp [escape_at, reserved]
    · simp [escape_cons h, Ne.symm h]

/-- An ordinary character that is escaped with what follows it stands in front unchanged. -/
theorem cons_prefix_escape {a : Char} (hat : a ≠ '@') (hhyphen : a ≠ '-') (pat s : List Char) :
    a :: pat <+: escape s ↔ ∃ rest, s = a :: rest ∧ pat <+: escape rest := by
  cases s with
  | nil => simp [escape]
  | cons c rest =>
    by_cases h : c = '@'
    · subst h
      simp [escape_at, reserved, hhyphen, Ne.symm hat]
    · simp only [escape_cons h, List.cons_prefix_cons, List.cons.injEq]
      constructor
      · rintro ⟨rfl, hpat⟩
        exact ⟨rest, ⟨rfl, rfl⟩, hpat⟩
      · rintro ⟨rest', ⟨rfl, rfl⟩, hpat⟩
        exact ⟨rfl, hpat⟩

theorem reserved_prefix_escape_cons (c : Char) (rest : List Char) :
    reserved <+: c :: escape rest ↔ Slips (c :: rest) := by
  have htail : ['a', 't', '-'] <+: escape rest ↔
      ['a', 't', '-'] <+: rest ∨ ['a', 't', '@'] <+: rest := by
    rw [cons_prefix_escape (by decide) (by decide)]
    simp only [cons_prefix_escape (a := 't') (by decide) (by decide), hyphen_prefix_escape,
      List.cons_prefix_iff (a := 'a'), List.cons_prefix_iff (a := 't'), and_or_left, exists_or]
  simp only [reserved, meeting, Slips, List.cons_prefix_cons, htail, and_or_left]

/-! ## Back and forth -/

theorem unescape_escape_iff (s : List Char) : unescape (escape s) = s ↔ ¬Ambiguous s := by
  induction s with
  | nil => exact iff_of_true rfl not_ambiguous_nil
  | cons c rest ih =>
    rw [ambiguous_cons, not_or]
    by_cases hat : c = '@'
    · subst hat
      rw [escape_at, unescape_reserved, List.cons_inj_right, ih, and_iff_right (not_slips_at rest)]
    · rw [escape_cons hat]
      by_cases hslip : Slips (c :: rest)
      · -- the sequence that slipped in is read as an at sign, which `c` is not
        obtain ⟨tail, htail⟩ := (reserved_prefix_escape_cons c rest).mpr hslip
        rw [← htail, unescape_reserved, List.cons.injEq]
        exact iff_of_false (fun h => hat h.1.symm) (fun h => h.1 hslip)
      · rw [unescape_cons (fun h => hslip ((reserved_prefix_escape_cons c rest).mp h)),
          List.cons_inj_right, ih, and_iff_right hslip]

theorem escape_unescape {s : List Char} (h : '@' ∉ s) : escape (unescape s) = s := by
  induction s using unescape.induct with
  | case1 rest ih =>
    rw [unescape.eq_1, escape_at, ih (fun hrest => h (by simp [hrest]))]
    rfl
  | case2 c rest hslip ih =>
    have hc : c ≠ '@' := fun hc => h (hc ▸ List.mem_cons_self ..)
    rw [unescape.eq_2 c rest hslip, escape_cons hc, ih (fun hrest => h (List.mem_cons_of_mem c hrest))]
  | case3 => rfl

/-! ## Pieces -/

theorem prefix_of_prefix_append_cons {a : Char} {pat rest : List Char} (ha : a ∉ pat)
    (front : List Char) (h : pat <+: front ++ a :: rest) : pat <+: front := by
  have hfront : front ++ [a] <+: front ++ a :: rest := ⟨rest, by simp⟩
  rcases List.prefix_or_prefix_of_prefix h hfront with h | h
  · rcases List.prefix_concat_iff.mp h with rfl | h
    · exact absurd (by simp) ha
    · exact h
  · exact absurd (h.subset (by simp)) ha

/-- A sequence does not reach across a character that is not in it. -/
theorem infix_append_cons {a : Char} {pat : List Char} (ha : a ∉ pat) (front rest : List Char) :
    pat <:+: front ++ a :: rest ↔ pat <:+: front ∨ pat <:+: rest := by
  constructor
  · intro h
    induction front with
    | nil =>
      rcases List.infix_cons_iff.mp h with h | h
      · exact .inl (prefix_of_prefix_append_cons ha [] h).isInfix
      · exact .inr h
    | cons c front ih =>
      rcases List.infix_cons_iff.mp h with h | h
      · exact .inl (prefix_of_prefix_append_cons ha (c :: front) h).isInfix
      · exact (ih h).imp_left List.infix_cons
  · rintro (h | h)
    · exact h.trans (List.prefix_append front (a :: rest)).isInfix
    · exact (List.infix_cons h).trans (List.suffix_append front (a :: rest)).isInfix

theorem ambiguous_append_cons {a : Char} (hreserved : a ∉ reserved) (hmeeting : a ∉ meeting)
    (front rest : List Char) :
    Ambiguous (front ++ a :: rest) ↔ Ambiguous front ∨ Ambiguous rest := by
  simp only [Ambiguous, infix_append_cons hreserved, infix_append_cons hmeeting]
  exact or_or_or_comm

end Naming

namespace Namespace

open Naming

theorem ofEncoded_eq_ok {encoded : String} {n : Namespace} :
    ofEncoded encoded = .ok n ↔ '@' ∉ n.name.toList ∧ n.toEncoded = encoded := by
  unfold ofEncoded
  dsimp only
  constructor
  · intro h
    split at h
    · next hread =>
      cases h
      refine ⟨?_, ?_⟩
      · rw [String.toList_ofList]
        exact at_not_mem_escape encoded.toList
      · rw [toEncoded, String.toList_ofList, hread, String.ofList_toList]
    · cases h
  · rintro ⟨hat, rfl⟩
    have hname : escape n.toEncoded.toList = n.name.toList := by
      rw [toEncoded, String.toList_ofList, escape_unescape hat]
    rw [hname, toEncoded, String.toList_ofList, if_pos rfl, String.ofList_toList]

/-- A computed name has a namespace exactly if it is not ambiguous. -/
theorem isOk_ofEncoded (encoded : String) :
    (∃ n, ofEncoded encoded = .ok n) ↔ ¬Ambiguous encoded.toList := by
  rw [← unescape_escape_iff]
  unfold ofEncoded
  dsimp only
  constructor
  · rintro ⟨n, h⟩
    split at h
    · assumption
    · cases h
  · intro h
    exact ⟨_, if_pos h⟩

theorem toEncoded_injOn : Set.InjOn toEncoded {n | '@' ∉ n.name.toList} := by
  intro n hn m hm heq
  have hread := ofEncoded_eq_ok.mpr ⟨hn, heq⟩
  rw [ofEncoded_eq_ok.mpr ⟨hm, rfl⟩] at hread
  exact (Except.ok.inj hread).symm

/-- A computed name is accepted exactly if it has neither the reserved sequence in it, nor most of it
before an at sign.  Writing it and reading it back are then inverse to each other, and every name
without an at sign is what one accepted name is written as. -/
theorem encoded_bijOn :
    (∀ x : String, (∃ n, ofEncoded x = .ok n) ↔
      ¬"-at-".toList <:+: x.toList ∧ ¬"-at@".toList <:+: x.toList) ∧
    (∀ (x : String) (n : Namespace),
      ofEncoded x = .ok n ↔ '@' ∉ n.name.toList ∧ n.toEncoded = x) ∧
    (∀ s : String, '@' ∉ s.toList ↔ ofEncoded (Namespace.mk s).toEncoded = .ok ⟨s⟩) ∧
    Set.BijOn toEncoded {n | '@' ∉ n.name.toList}
      {x | ¬"-at-".toList <:+: x.toList ∧ ¬"-at@".toList <:+: x.toList} := by
  have haccepted (x : String) : (∃ n, ofEncoded x = .ok n) ↔
      ¬"-at-".toList <:+: x.toList ∧ ¬"-at@".toList <:+: x.toList := by
    rw [isOk_ofEncoded, Ambiguous, not_or]
    rfl
  refine ⟨haccepted, fun x n => ofEncoded_eq_ok, fun s => ?_, ?_, toEncoded_injOn, ?_⟩
  · rw [ofEncoded_eq_ok, and_iff_left rfl]
  · intro n hn
    exact (haccepted n.toEncoded).mp ⟨n, ofEncoded_eq_ok.mpr ⟨hn, rfl⟩⟩
  · intro x hx
    obtain ⟨n, hn⟩ := (haccepted x).mpr hx
    exact ⟨n, ofEncoded_eq_ok.mp hn⟩

-- the hyphens of two written at signs may enclose `at`: the sequence on the left is read first
example : ofEncoded "@at@" = .ok ⟨"-at-at-at-"⟩ := rfl

end Namespace

end DocumentStore
