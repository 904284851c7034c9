import DocumentStore.Predicate.Filters
set_option autoImplicit false

/-!
# The meaning of predicates is kept by their filters

A predicate is true of an entity or not, given the truth of its parameters.  The alternatives of its
normal form say the same: a list of alternatives is true if all parameters of one of them are.  By
induction on the tree, `product` is the conjunction of two such lists and appending them the
disjunction.  No parameter is lost on the way, so what compiles has a filter for every parameter.
-/

namespace DocumentStore

/-- Whether the filter of a parameter holds of an entity; a parameter without one holds of none. -/
def Parameter.holds (mapping : ColumnMapping) (e : Entity) (p : Parameter) : Bool :=
  match p.toFilter mapping with
  | .ok f => f.holds e
  | .error _ => false

namespace Predicate

mutual

/-- Every parameter of a predicate, those of a node before those below it. -/
def allParameters : Predicate → List Parameter
  | .node _ ps cs => ps ++ allParametersOf cs

/-- Every parameter of predicates, one predicate after another. -/
def allParametersOf : List Predicate → List Parameter
  | [] => []
  | p :: rest => allParameters p ++ allParametersOf rest

end

/-! ## The truth of alternatives -/

theorem any_product (holds : Parameter → Bool) (left right : List (List Parameter)) :
    (product left right).any (·.all holds) =
      (left.any (·.all holds) && right.any (·.all holds)) := by
  rw [Bool.eq_iff_iff]
  simp only [product, List.any_flatMap, List.any_map, Function.comp_def, List.all_append,
    Bool.and_eq_true, List.any_eq_true]
  constructor
  · rintro ⟨l, hl, r, hr, hlt, hrt⟩
    exact ⟨⟨l, hl, hlt⟩, r, hr, hrt⟩
  · rintro ⟨⟨l, hl, hlt⟩, r, hr, hrt⟩
    exact ⟨l, hl, r, hr, hlt, hrt⟩

-- One case for each way a node is built, with the two recursions through lists of children beside
-- it: children of an "and" node multiply what was collected so far, those of an "or" node add.
mutual

theorem any_alternatives (holds : Parameter → Bool) : ∀ (p : Predicate)
    {terms : List (List Parameter)}, alternatives p = .ok terms →
    terms.any (·.all holds) = eval holds p
  | .node connective ps cs, terms, h => by
    rw [alternatives.eq_def] at h
    simp only at h
    split at h
    · cases h
    · cases connective with
      | and =>
        rw [any_allOf holds cs h]
        simp [eval]
      | or =>
        simp only at h
        split at h
        · next more hmore =>
          cases h
          rw [List.any_append, any_anyOf holds cs hmore]
          simp [eval, Function.comp_def]
        · cases h

theorem any_allOf (holds : Parameter → Bool) : ∀ (cs : List Predicate)
    {acc terms : List (List Parameter)}, allOf acc cs = .ok terms →
    terms.any (·.all holds) = (acc.any (·.all holds) && evalAll holds cs)
  | [], acc, terms, h => by
    cases h
    simp [evalAll]
  | c :: rest, acc, terms, h => by
    unfold allOf at h
    split at h
    · next right hright =>
      rw [any_allOf holds rest h, any_product, any_alternatives holds c hright, evalAll,
        Bool.and_assoc]
    · cases h

theorem any_anyOf (holds : Parameter → Bool) : ∀ (cs : List Predicate)
    {terms : List (List Parameter)}, anyOf cs = .ok terms →
    terms.any (·.all holds) = evalAny holds cs
  | [], terms, h => by
    cases h
    simp [evalAny]
  | c :: rest, terms, h => by
    unfold anyOf at h
    split at h
    · next first hfirst =>
      split at h
      · next more hmore =>
        cases h
        rw [List.any_append, any_alternatives holds c hfirst, any_anyOf holds rest hmore, evalAny]
      · cases h
    · cases h

end

/-! ## No parameter is lost -/

theorem product_ne_nil {left right : List (List Parameter)} (hl : left ≠ []) (hr : right ≠ []) :
    product left right ≠ [] := by
  cases left with
  | nil => exact absurd rfl hl
  | cons l rest => simp [product, hr]

theorem mem_flatten_product_of_left {left right : List (List Parameter)} (hr : right ≠ [])
    {q : Parameter} (hq : q ∈ left.flatten) : q ∈ (product left right).flatten := by
  obtain ⟨l, hl, hql⟩ := List.mem_flatten.mp hq
  obtain ⟨r, hr⟩ := List.exists_mem_of_ne_nil right hr
  refine List.mem_flatten.mpr ⟨l ++ r, ?_, List.mem_append_left _ hql⟩
  exact List.mem_flatMap.mpr ⟨l, hl, List.mem_map_of_mem hr⟩

theorem mem_flatten_product_of_right {left right : List (List Parameter)} (hl : left ≠ [])
    {q : Parameter} (hq : q ∈ right.flatten) : q ∈ (product left right).flatten := by
  obtain ⟨r, hr, hqr⟩ := List.mem_flatten.mp hq
  obtain ⟨l, hl⟩ := List.exists_mem_of_ne_nil left hl
  refine List.mem_flatten.mpr ⟨l ++ r, ?_, List.mem_append_right _ hqr⟩
  exact List.mem_flatMap.mpr ⟨l, hl, List.mem_map_of_mem hr⟩

-- A product with no alternatives on one side would drop the other side's parameters, so first: a
-- node that is not refused has an alternative.
mutual

theorem alternatives_ne_nil : ∀ (p : Predicate) {terms : List (List Parameter)},
    alternatives p = .ok terms → terms ≠ []
  | .node connective ps cs, terms, h => by
    rw [alternatives.eq_def] at h
    simp only at h
    split at h
    · cases h
    · next hne =>
      cases connective with
      | and => exact allOf_ne_nil cs (by simp) h
      | or =>
        simp only at h
        split at h
        · next more hmore =>
          cases h
          intro hnil
          obtain ⟨hmap, hmoreNil⟩ := List.append_eq_nil_iff.mp hnil
          have hps : ps = [] := List.map_eq_nil_iff.mp hmap
          have hcs : cs ≠ [] := by
            intro hcs
            exact hne (by simp [hps, hcs])
          exact anyOf_ne_nil cs hcs hmore hmoreNil
        · cases h

theorem allOf_ne_nil : ∀ (cs : List Predicate) {acc terms : List (List Parameter)},
    acc ≠ [] → allOf acc cs = .ok terms → terms ≠ []
  | [], acc, terms, hacc, h => by
    cases h
    exact hacc
  | c :: rest, acc, terms, hacc, h => by
    unfold allOf at h
    split at h
    · next right hright =>
      exact allOf_ne_nil rest (product_ne_nil hacc (alternatives_ne_nil c hright)) h
    · cases h

theorem anyOf_ne_nil : ∀ (cs : List Predicate) {terms : List (List Parameter)},
    cs ≠ [] → anyOf cs = .ok terms → terms ≠ []
  | [], terms, hcs, _ => absurd rfl hcs
  | c :: rest, terms, _, h => by
    unfold anyOf at h
    split at h
    · next first hfirst =>
      split at h
      · cases h
        simp [alternatives_ne_nil c hfirst]
      · cases h
    · cases h

end

mutual

theorem mem_flatten_alternatives {q : Parameter} : ∀ (p : Predicate)
    {terms : List (List Parameter)}, alternatives p = .ok terms → q ∈ p.allParameters →
    q ∈ terms.flatten
  | .node connective ps cs, terms, h, hq => by
    rw [allParameters, List.mem_append] at hq
    rw [alternatives.eq_def] at h
    simp only at h
    split at h
    · cases h
    · cases connective with
      | and => exact mem_flatten_allOf cs (by simp) h (by simpa using hq)
      | or =>
        simp only at h
        split at h
        · next more hmore =>
          cases h
          rw [List.flatten_append, List.mem_append]
          rcases hq with hq | hq
          · exact Or.inl (List.mem_flatten.mpr ⟨[q], by simpa using hq, by simp⟩)
          · exact Or.inr (mem_flatten_anyOf cs hmore hq)
        · cases h

theorem mem_flatten_allOf {q : Parameter} : ∀ (cs : List Predicate)
    {acc terms : List (List Parameter)}, acc ≠ [] → allOf acc cs = .ok terms →
    q ∈ acc.flatten ∨ q ∈ allParametersOf cs → q ∈ terms.flatten
  | [], acc, terms, _, h, hq => by
    cases h
    simpa [allParametersOf] using hq
  | c :: rest, acc, terms, hacc, h, hq => by
    unfold allOf at h
    split at h
    · next right hright =>
      have hne : right ≠ [] := alternatives_ne_nil c hright
      refine mem_flatten_allOf rest (product_ne_nil hacc hne) h ?_
      rw [allParametersOf, List.mem_append] at hq
      rcases hq with hq | hq | hq
      · exact Or.inl (mem_flatten_product_of_left hne hq)
      · exact Or.inl (mem_flatten_product_of_right hacc (mem_flatten_alternatives c hright hq))
      · exact Or.inr hq
    · cases h

theorem mem_flatten_anyOf {q : Parameter} : ∀ (cs : List Predicate)
    {terms : List (List Parameter)}, anyOf cs = .ok terms → q ∈ allParametersOf cs →
    q ∈ terms.flatten
  | [], terms, _, hq => by simp [allParametersOf] at hq
  | c :: rest, terms, h, hq => by
    unfold anyOf at h
    rw [allParametersOf, List.mem_append] at hq
    split at h
    · next first hfirst =>
      split at h
      · next more hmore =>
        cases h
        rw [List.flatten_append, List.mem_append]
        rcases hq with hq | hq
        · exact Or.inl (mem_flatten_alternatives c hfirst hq)
        · exact Or.inr (mem_flatten_anyOf rest hmore hq)
      · cases h
    · cases h

end

/-! ## The filters of alternatives -/

section Filters

variable {mapping : ColumnMapping}

theorem filtersOf_ok : ∀ {ps : List Parameter} {fs : List PropertyFilter},
    filtersOf mapping ps = .ok fs → ps.map (·.toFilter mapping) = fs.map .ok
  | [], fs, h => by
    cases h
    rfl
  | p :: rest, fs, h => by
    unfold filtersOf at h
    obtain ⟨f, hf, h⟩ := Outcome.bind_eq_ok h
    obtain ⟨more, hmore, h⟩ := Outcome.bind_eq_ok h
    cases h
    rw [List.map_cons, List.map_cons, hf, filtersOf_ok hmore]

theorem all_filtersOf (e : Entity) : ∀ {ps : List Parameter} {fs : List PropertyFilter},
    filtersOf mapping ps = .ok fs → fs.all (·.holds e) = ps.all (·.holds mapping e)
  | [], fs, h => by
    cases h
    rfl
  | p :: rest, fs, h => by
    unfold filtersOf at h
    obtain ⟨f, hf, h⟩ := Outcome.bind_eq_ok h
    obtain ⟨more, hmore, h⟩ := Outcome.bind_eq_ok h
    cases h
    have hp : p.holds mapping e = f.holds e := by
      rw [Parameter.holds, hf]
    rw [List.all_cons, List.all_cons, all_filtersOf e hmore, hp]

theorem conjunction_ok {ps : List Parameter} {f : ConjunctiveFilter}
    (h : conjunction mapping ps = .ok f) : filtersOf mapping ps = .ok f.filters := by
  unfold conjunction at h
  split at h
  · cases h
  · obtain ⟨fs, hfs, h⟩ := Outcome.bind_eq_ok h
    cases h
    exact hfs

theorem any_conjunctions (e : Entity) : ∀ {terms : List (List Parameter)}
    {filters : List ConjunctiveFilter}, conjunctions mapping terms = .ok filters →
    filters.any (·.holds e) = terms.any (·.all (·.holds mapping e))
  | [], filters, h => by
    cases h
    rfl
  | ps :: rest, filters, h => by
    unfold conjunctions at h
    obtain ⟨f, hf, h⟩ := Outcome.bind_eq_ok h
    obtain ⟨more, hmore, h⟩ := Outcome.bind_eq_ok h
    cases h
    rw [List.any_cons, List.any_cons, any_conjunctions e hmore, ConjunctiveFilter.holds,
      all_filtersOf e (conjunction_ok hf)]

theorem length_conjunctions : ∀ {terms : List (List Parameter)} {filters : List ConjunctiveFilter},
    conjunctions mapping terms = .ok filters → filters.length = terms.length
  | [], filters, h => by
    cases h
    rfl
  | ps :: rest, filters, h => by
    unfold conjunctions at h
    obtain ⟨f, hf, h⟩ := Outcome.bind_eq_ok h
    obtain ⟨more, hmore, h⟩ := Outcome.bind_eq_ok h
    cases h
    rw [List.length_cons, List.length_cons, length_conjunctions hmore]

theorem toFilter_of_conjunctions {q : Parameter} : ∀ {terms : List (List Parameter)}
    {filters : List ConjunctiveFilter}, conjunctions mapping terms = .ok filters →
    q ∈ terms.flatten → ∃ f, q.toFilter mapping = .ok f
  | [], filters, _, hq => by simp at hq
  | ps :: rest, filters, h, hq => by
    unfold conjunctions at h
    obtain ⟨f, hf, h⟩ := Outcome.bind_eq_ok h
    obtain ⟨more, hmore, h⟩ := Outcome.bind_eq_ok h
    rw [List.flatten_cons, List.mem_append] at hq
    rcases hq with hq | hq
    · have hmem : q.toFilter mapping ∈ f.filters.map Except.ok := by
        rw [← filtersOf_ok (conjunction_ok hf)]
        exact List.mem_map_of_mem hq
      obtain ⟨g, _, hg⟩ := List.mem_map.mp hmem
      exact ⟨g, hg.symm⟩
    · exact toFilter_of_conjunctions hmore hq

end Filters

/-! ## Compilation -/

theorem compile_empty (mapping : ColumnMapping) {p : Predicate} (h : p.isEmpty = true) :
    p.compile mapping = .ok [] := by
  rw [compile, if_pos h]

/-- What a predicate compiles to are the filters of its alternatives, whichever way its root joins
its parts and whatever shape its normal form has. -/
theorem compile_eq_alternatives (mapping : ColumnMapping) {p : Predicate} (h : p.isEmpty = false) :
    p.compile mapping = p.alternatives >>= conjunctions mapping := by
  obtain ⟨connective, ps, cs⟩ := p
  have hne : (ps.isEmpty && cs.isEmpty) = false := h
  have hparts : ∀ terms : List (List Parameter), (terms.map all).map (·.parameters) = terms := by
    intro terms
    simp [Function.comp_def, all, parameters]
  rw [compile, if_neg (by simp [h]), normalize, if_neg (by simp [h])]
  cases connective with
  | and =>
    simp only [Predicate.connective]
    cases halt : alternatives (.node .and ps cs) with
    | error e => rfl
    | ok terms =>
      -- a single alternative stays an "and" node, and only then
      rcases terms with _ | ⟨first, _ | ⟨second, rest⟩⟩
      · rfl
      · rfl
      · show conjunctions mapping ([] ++ ((first :: second :: rest).map all).map (·.parameters)) =
          conjunctions mapping (first :: second :: rest)
        rw [hparts, List.nil_append]
  | or =>
    simp only [Predicate.connective, Predicate.children, Predicate.parameters]
    rw [alternatives, if_neg (by simp [hne])]
    cases hany : anyOf cs with
    | error e => rfl
    | ok terms =>
      show conjunctions mapping (ps.map (fun p => [p]) ++ (terms.map all).map (·.parameters)) =
        conjunctions mapping (ps.map (fun p => [p]) ++ terms)
      rw [hparts]

/-- One of the filters holds of an entity exactly if the tree is true of it. -/
theorem any_compile {mapping : ColumnMapping} {p : Predicate} (hne : p.isEmpty = false)
    {filters : List ConjunctiveFilter} (h : p.compile mapping = .ok filters) (e : Entity) :
    filters.any (·.holds e) = p.eval (·.holds mapping e) := by
  rw [compile_eq_alternatives mapping hne] at h
  obtain ⟨terms, halt, hconj⟩ := Outcome.bind_eq_ok h
  rw [any_conjunctions e hconj]
  exact any_alternatives _ p halt

/-- Only the empty predicate has no filter. -/
theorem compile_ne_nil {mapping : ColumnMapping} {p : Predicate} (hne : p.isEmpty = false)
    {filters : List ConjunctiveFilter} (h : p.compile mapping = .ok filters) : filters ≠ [] := by
  rw [compile_eq_alternatives mapping hne] at h
  obtain ⟨terms, halt, hconj⟩ := Outcome.bind_eq_ok h
  have hlength := length_conjunctions hconj
  intro hnil
  rw [hnil] at hlength
  exact alternatives_ne_nil p halt (List.eq_nil_of_length_eq_zero hlength.symm)

/-- The filters of a predicate select what the predicate is true of: one of them holds of an entity
exactly if the tree is true of it.  Every parameter of the tree has a filter then, so that its truth
is that of its filter.  The empty predicate compiles to no filter. -/
theorem compile_selects (mapping : ColumnMapping) (p : Predicate) :
    (p.isEmpty = true → p.compile mapping = .ok []) ∧
      (p.isEmpty = false → ∀ filters, p.compile mapping = .ok filters →
        (∀ q ∈ p.allParameters, ∃ f, q.toFilter mapping = .ok f) ∧
        ∀ e : Entity, filters.any (·.holds e) = p.eval (·.holds mapping e)) := by
  constructor
  · exact compile_empty mapping
  · intro hne filters h
    constructor
    · intro q hq
      rw [compile_eq_alternatives mapping hne] at h
      obtain ⟨terms, halt, hconj⟩ := Outcome.bind_eq_ok h
      exact toFilter_of_conjunctions hconj (mem_flatten_alternatives p halt hq)
    · intro e
      exact any_compile hne h e

/-- "a = 1 and (b = 2 or (c > 3 and d ≤ 4))". -/
def nestedSample : Predicate :=
  .node .and [⟨"a", .equal, .int64 1⟩]
    [.node .or [⟨"b", .equal, .int64 2⟩]
      [.node .and [⟨"c", .greaterThan, .int64 3⟩, ⟨"d", .lessOrEqual, .int64 4⟩] []]]

theorem compile_selects_nested :
    nestedSample.isEmpty = false ∧ ∃ filters, nestedSample.compile .builtin = .ok filters ∧
      filters.length = 2 ∧
      ∀ e : Entity, filters.any (·.holds e) = nestedSample.eval (·.holds .builtin e) := by
  refine ⟨rfl, _, rfl, rfl, ?_⟩
  exact ((compile_selects .builtin nestedSample).2 rfl _ rfl).2

end Predicate

end DocumentStore
