import DocumentStore.Proofs.Predicate.Meaning
import Mathlib.Algebra.BigOperators.Group.List.Basic
import Mathlib.Algebra.GroupWithZero.Nat
import Mathlib.Data.List.Forall2
set_option autoImplicit false

/-!
# What alternatives are made of

The alternatives of a node are those of its children, put together: each alternative of an "and"
node is the node's own parameters followed by one alternative of every child, and those of an "or"
node are its parameters, one by one, and the alternatives of its children.  So it is known how many
there are, that none is without a parameter, and that only a node with nothing in it is refused.
-/

namespace DocumentStore.Predicate

/-- What holds of a node whenever it holds of its children holds of every predicate. -/
theorem induct {motive : Predicate → Prop}
    (node : ∀ connective ps cs, (∀ c ∈ cs, motive c) → motive (.node connective ps cs))
    (p : Predicate) : motive p :=
  Predicate.rec (motive_2 := fun cs => ∀ c ∈ cs, motive c) node
    (fun _ hmem => nomatch hmem)
    (fun _ _ hfirst hrest => List.forall_mem_cons.mpr ⟨hfirst, hrest⟩) p

/-! ## The nodes below a root -/

mutual

/-- Every node below the root, each before those below it. -/
def descendants : Predicate → List Predicate
  | .node _ _ cs => descendantsOf cs

/-- Predicates, each with the nodes below it. -/
def descendantsOf : List Predicate → List Predicate
  | [] => []
  | c :: rest => c :: (descendants c ++ descendantsOf rest)

end

mutual

/-- How many alternatives a predicate has: its children's numbers multiplied for an "and" node,
added to that of its parameters for an "or" node. -/
def width : Predicate → Nat
  | .node .and _ cs => widthProduct cs
  | .node .or ps cs => ps.length + widthSum cs

/-- The product of the numbers of alternatives. -/
def widthProduct : List Predicate → Nat
  | [] => 1
  | c :: rest => width c * widthProduct rest

/-- The sum of the numbers of alternatives. -/
def widthSum : List Predicate → Nat
  | [] => 0
  | c :: rest => width c + widthSum rest

end

/-- A product of several parts joins one alternative of each. -/
theorem mem_foldl_product {t : List Parameter} {acc : List (List Parameter)}
    {parts : List (List (List Parameter))} (h : t ∈ parts.foldl product acc) :
    ∃ first ∈ acc, ∃ chosen : List (List Parameter), t = first ++ chosen.flatten ∧
      chosen.length = parts.length ∧ ∀ u ∈ chosen, ∃ part ∈ parts, u ∈ part := by
  induction parts generalizing acc with
  | nil => exact ⟨t, h, [], (List.append_nil t).symm, rfl, fun _ hu => nomatch hu⟩
  | cons part rest ih =>
    obtain ⟨both, hboth, chosen, rfl, hlength, hchosen⟩ := ih h
    obtain ⟨first, hfirst, hmap⟩ := List.mem_flatMap.mp hboth
    obtain ⟨second, hsecond, rfl⟩ := List.mem_map.mp hmap
    refine ⟨first, hfirst, second :: chosen, ?_, congrArg (· + 1) hlength, ?_⟩
    · rw [List.flatten_cons, List.append_assoc]
    · refine List.forall_mem_cons.mpr ⟨⟨part, List.mem_cons_self, hsecond⟩, fun u hu => ?_⟩
      obtain ⟨later, hlater, hu⟩ := hchosen u hu
      exact ⟨later, List.mem_cons_of_mem part hlater, hu⟩

/-- The alternatives of each child. -/
def Parts (cs : List Predicate) (parts : List (List (List Parameter))) : Prop :=
  List.Forall₂ (fun c part => alternatives c = .ok part) cs parts

/-- A node's alternatives from those of its children. -/
def joined : Connective → List Parameter → List (List (List Parameter)) → List (List Parameter)
  | .and, ps, parts => parts.foldl product [ps]
  | .or, ps, parts => ps.map (fun p => [p]) ++ parts.flatten

theorem allOf_eq_ok {cs : List Predicate} {acc terms : List (List Parameter)}
    (h : allOf acc cs = .ok terms) : ∃ parts, Parts cs parts ∧ terms = parts.foldl product acc := by
  induction cs generalizing acc with
  | nil =>
    cases h
    exact ⟨[], .nil, rfl⟩
  | cons c rest ih =>
    unfold allOf at h
    split at h
    · next right hright =>
      obtain ⟨parts, hparts, rfl⟩ := ih h
      exact ⟨right :: parts, .cons hright hparts, rfl⟩
    · cases h

theorem anyOf_eq_ok {cs : List Predicate} {terms : List (List Parameter)}
    (h : anyOf cs = .ok terms) : ∃ parts, Parts cs parts ∧ terms = parts.flatten := by
  induction cs generalizing terms with
  | nil =>
    cases h
    exact ⟨[], .nil, rfl⟩
  | cons c rest ih =>
    unfold anyOf at h
    split at h
    · next first hfirst =>
      split at h
      · next more hmore =>
        cases h
        obtain ⟨parts, hparts, rfl⟩ := ih hmore
        exact ⟨first :: parts, .cons hfirst hparts, rfl⟩
      · cases h
    · cases h

theorem alternatives_eq_ok {connective : Connective} {ps : List Parameter} {cs : List Predicate}
    {terms : List (List Parameter)} (h : alternatives (.node connective ps cs) = .ok terms) :
    (node connective ps cs).isEmpty = false ∧
      ∃ parts, Parts cs parts ∧ terms = joined connective ps parts := by
  rw [alternatives.eq_def] at h
  dsimp only at h
  split at h
  · cases h
  · next hne =>
    refine ⟨eq_false_of_ne_true hne, ?_⟩
    cases connective with
    | and => exact allOf_eq_ok h
    | or =>
      dsimp only at h
      split at h
      · next more hmore =>
        cases h
        obtain ⟨parts, hparts, rfl⟩ := anyOf_eq_ok hmore
        exact ⟨parts, hparts, rfl⟩
      · cases h

theorem Parts.exists_child {cs : List Predicate} {parts : List (List (List Parameter))}
    (h : Parts cs parts) {part : List (List Parameter)} (hpart : part ∈ parts) :
    ∃ c ∈ cs, alternatives c = .ok part := by
  induction h with
  | nil => cases hpart
  | cons hfirst _ ih =>
    rcases List.mem_cons.mp hpart with rfl | hpart
    · exact ⟨_, List.mem_cons_self, hfirst⟩
    · obtain ⟨c, hc, halt⟩ := ih hpart
      exact ⟨c, List.mem_cons_of_mem _ hc, halt⟩

/-- Every alternative has a parameter. -/
theorem ne_nil_of_mem_alternatives {p : Predicate} {terms : List (List Parameter)}
    (h : alternatives p = .ok terms) : ∀ t ∈ terms, t ≠ [] := by
  induction p using induct generalizing terms with
  | node connective ps cs ih =>
    obtain ⟨hne, parts, hparts, rfl⟩ := alternatives_eq_ok h
    have hpart : ∀ part ∈ parts, ∀ t ∈ part, t ≠ [] := fun part hpart => by
      obtain ⟨c, hc, halt⟩ := hparts.exists_child hpart
      exact ih c hc halt
    intro t ht
    cases connective with
    | or =>
      rcases List.mem_append.mp ht with ht | ht
      · obtain ⟨p, -, rfl⟩ := List.mem_map.mp ht
        exact List.cons_ne_nil p []
      · obtain ⟨part, hin, ht⟩ := List.mem_flatten.mp ht
        exact hpart part hin t ht
    | and =>
      obtain ⟨first, hfirst, chosen, rfl, hlength, hchosen⟩ := mem_foldl_product ht
      obtain rfl := List.mem_singleton.mp hfirst
      intro hnil
      obtain ⟨rfl, hflat⟩ := List.append_eq_nil_iff.mp hnil
      -- without parameters of its own the node has a child, whose alternative has a parameter
      cases chosen with
      | nil =>
        have hchildren : cs.length = 0 := hparts.length_eq.trans hlength.symm
        rw [List.eq_nil_of_length_eq_zero hchildren] at hne
        cases hne
      | cons second _ =>
        obtain ⟨part, hin, hsecond⟩ := hchosen second List.mem_cons_self
        exact hpart part hin second hsecond
          (List.flatten_eq_nil_iff.mp hflat second List.mem_cons_self)

end DocumentStore.Predicate
