import DocumentStore.Proofs.Predicate.Alternatives
set_option autoImplicit false

/-!
# The normal form

Whatever shape a predicate has, its normal form is a group of parameters or an "or" of such groups.
Of a predicate that has this shape already, the alternatives are its own parameters and groups, so
that it is its own normal form.  Since filters are made of the normal form alone, they are the same
for a predicate and for its normal form.
-/

namespace DocumentStore.Predicate

/-- Whether a predicate is a group of parameters, or an "or" node whose children are groups of at
least one parameter. -/
def IsNormal : Predicate → Prop
  | .node .and _ cs => cs = []
  | .node .or _ cs => ∀ c ∈ cs, c.connective = .and ∧ c.parameters ≠ [] ∧ c.children = []

/-! ## Groups of parameters -/

theorem alternatives_all {t : List Parameter} (h : t ≠ []) : alternatives (all t) = .ok [t] := by
  rw [all, alternatives.eq_def]
  dsimp only
  rw [if_neg (by simp [h])]
  rfl

theorem anyOf_map_all {terms : List (List Parameter)} (h : ∀ t ∈ terms, t ≠ []) :
    anyOf (terms.map all) = .ok terms := by
  induction terms with
  | nil => rfl
  | cons t rest ih =>
    obtain ⟨ht, hrest⟩ := List.forall_mem_cons.mp h
    rw [List.map_cons, anyOf, alternatives_all ht, ih hrest]
    rfl

theorem isNormal_or_map_all (ps : List Parameter) {terms : List (List Parameter)}
    (h : ∀ t ∈ terms, t ≠ []) : IsNormal (.node .or ps (terms.map all)) := by
  intro c hc
  obtain ⟨t, ht, rfl⟩ := List.mem_map.mp hc
  exact ⟨rfl, h t ht, rfl⟩

/-- The children of an "or" node in normal form are groups. -/
theorem exists_groups {ps : List Parameter} {cs : List Predicate} (h : IsNormal (.node .or ps cs)) :
    ∃ terms : List (List Parameter), cs = terms.map all ∧ ∀ t ∈ terms, t ≠ [] := by
  refine ⟨cs.map parameters, ?_, fun t ht => ?_⟩
  · rw [List.map_map]
    refine (List.map_id cs).symm.trans (List.map_congr_left fun c hc => ?_)
    obtain ⟨connective, ps, cs⟩ := c
    obtain ⟨rfl, -, rfl⟩ := h _ hc
    rfl
  · obtain ⟨c, hc, rfl⟩ := List.mem_map.mp ht
    exact (h c hc).2.1

/-! ## Normal forms -/

theorem normalize_empty {p : Predicate} (h : p.isEmpty = true) : p.normalize = .ok p := by
  rw [normalize, if_pos h]

/-- Apart from the empty predicate, a normal form is a group or an "or" of parameters and groups. -/
theorem normalize_eq_ok {p q : Predicate} (hne : p.isEmpty = false) (h : p.normalize = .ok q) :
    (∃ t : List Parameter, t ≠ [] ∧ q = all t) ∨
      ∃ (ps : List Parameter) (terms : List (List Parameter)), (ps ≠ [] ∨ terms ≠ []) ∧
        (∀ t ∈ terms, t ≠ []) ∧ q = .node .or ps (terms.map all) := by
  obtain ⟨connective, ps, cs⟩ := p
  rw [normalize, if_neg (by simp [hne])] at h
  cases connective with
  | and =>
    dsimp only [Predicate.connective] at h
    cases halt : alternatives (.node .and ps cs) with
    | error e =>
      rw [halt] at h
      cases h
    | ok terms =>
      have hterms := ne_nil_of_mem_alternatives halt
      rw [halt] at h
      -- a single alternative becomes a group, and only then
      rcases terms with _ | ⟨t, _ | ⟨t', rest⟩⟩
      · exact absurd rfl (alternatives_ne_nil _ halt)
      · cases h
        exact .inl ⟨t, hterms t List.mem_cons_self, rfl⟩
      · cases h
        exact .inr ⟨[], _, .inr (List.cons_ne_nil _ _), hterms, rfl⟩
  | or =>
    dsimp only [Predicate.connective, Predicate.parameters, Predicate.children] at h
    cases hany : anyOf cs with
    | error e =>
      rw [hany] at h
      cases h
    | ok terms =>
      rw [hany] at h
      cases h
      have halt : alternatives (.node .or ps cs) = .ok (ps.map (fun p => [p]) ++ terms) := by
        rw [alternatives.eq_def]
        dsimp only
        rw [if_neg (show ¬(ps.isEmpty && cs.isEmpty) = true from ne_true_of_eq_false hne), hany]
      refine .inr ⟨ps, terms, ?_, fun t ht => ?_, rfl⟩
      · by_cases hps : ps = []
        · refine .inr (anyOf_ne_nil cs (fun hcs => ?_) hany)
          rw [hps, hcs] at hne
          cases hne
        · exact .inl hps
      · exact ne_nil_of_mem_alternatives halt t (List.mem_append_right _ ht)

theorem isNormal_of_normalize {p q : Predicate} (h : p.normalize = .ok q) : q.IsNormal := by
  cases hempty : p.isEmpty with
  | true =>
    rw [normalize_empty hempty] at h
    cases h
    obtain ⟨connective, ps, cs⟩ := p
    obtain rfl : cs = [] := List.isEmpty_iff.mp (Bool.and_eq_true_iff.mp hempty).2
    cases connective with
    | and => rfl
    | or => exact fun _ hc => nomatch hc
  | false =>
    rcases normalize_eq_ok hempty h with ⟨t, -, rfl⟩ | ⟨ps, terms, -, hterms, rfl⟩
    · rfl
    · exact isNormal_or_map_all ps hterms

theorem normalize_of_isNormal {q : Predicate} (h : q.IsNormal) : q.normalize = .ok q := by
  by_cases hempty : q.isEmpty = true
  · exact normalize_empty hempty
  · obtain ⟨connective, ps, cs⟩ := q
    rw [normalize, if_neg hempty]
    cases connective with
    | and =>
      obtain rfl : cs = [] := h
      have hps : ps ≠ [] := by
        rintro rfl
        exact hempty rfl
      dsimp only [Predicate.connective]
      rw [show alternatives (.node .and ps []) = .ok [ps] from alternatives_all hps]
      rfl
    | or =>
      obtain ⟨terms, rfl, hterms⟩ := exists_groups h
      dsimp only [Predicate.connective, Predicate.parameters, Predicate.children]
      rw [anyOf_map_all hterms]

theorem isEmpty_of_normalize {p q : Predicate} (h : p.normalize = .ok q) :
    q.isEmpty = p.isEmpty := by
  cases hempty : p.isEmpty with
  | true =>
    rw [normalize_empty hempty] at h
    cases h
    exact hempty
  | false =>
    rcases normalize_eq_ok hempty h with ⟨t, ht, rfl⟩ | ⟨ps, terms, hne, -, rfl⟩
    · simpa [isEmpty, all, parameters, children] using ht
    · simpa [isEmpty, parameters, children, ← not_and_or] using hne

/-- The normal form of a predicate is in normal form and is its own normal form, and it compiles to
the same filters in the same order, or fails with the same error. -/
theorem normalize_canonical {p q : Predicate} (h : p.normalize = .ok q) :
    q.IsNormal ∧ q.normalize = .ok q ∧
      ∀ mapping : ColumnMapping, q.compile mapping = p.compile mapping := by
  have hnormal := isNormal_of_normalize h
  have hagain := normalize_of_isNormal hnormal
  refine ⟨hnormal, hagain, fun mapping => ?_⟩
  rw [compile, compile, isEmpty_of_normalize h, hagain, h]

theorem normalize_canonical_nested :
    ∃ q, nestedSample.normalize = .ok q ∧ q.children.length = 2 ∧ q.normalize = .ok q ∧
      q.compile .builtin = nestedSample.compile .builtin := by
  obtain ⟨-, hagain, hcompile⟩ := normalize_canonical (p := nestedSample) rfl
  exact ⟨_, rfl, rfl, hagain, hcompile .builtin⟩

end DocumentStore.Predicate
