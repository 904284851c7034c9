import DocumentStore.Fault
set_option autoImplicit false

/-!
# Disjunctive normal form

A predicate is turned into alternatives, each a list of parameters that all have to hold: "and" of
"or"s becomes the alternatives' products.  Parameters that stand directly at an "or" root stay
there, each an alternative of its own.  A node below the root with nothing in it is refused.
-/

namespace DocumentStore.Predicate

/-- Every way to join an alternative on the left with one on the right. -/
def product (left right : List (List Parameter)) : List (List Parameter) :=
  left.flatMap fun l => right.map (l ++ ·)

mutual

/-- The alternatives of a node. -/
def alternatives : Predicate → Outcome (List (List Parameter))
  | .node connective ps cs =>
    if ps.isEmpty && cs.isEmpty then .error .emptyConjunction
    else
      match connective with
      | .and => allOf [ps] cs
      | .or =>
        match anyOf cs with
        | .ok terms => .ok (ps.map (fun p => [p]) ++ terms)
        | .error e => .error e

/-- Alternatives joined with those of each child in turn. -/
def allOf (terms : List (List Parameter)) : List Predicate → Outcome (List (List Parameter))
  | [] => .ok terms
  | c :: rest =>
    match alternatives c with
    | .ok right => allOf (product terms right) rest
    | .error e => .error e

/-- The alternatives of every child, one child after another. -/
def anyOf : List Predicate → Outcome (List (List Parameter))
  | [] => .ok []
  | c :: rest =>
    match alternatives c with
    | .ok terms =>
      match anyOf rest with
      | .ok more => .ok (terms ++ more)
      | .error e => .error e
    | .error e => .error e

end

/-- The normal form: one "and" node of parameters, or an "or" node of such nodes. -/
def normalize (p : Predicate) : Outcome Predicate :=
  if p.isEmpty then .ok p
  else
    match p.connective with
    | .and =>
      match alternatives p with
      | .ok [term] => .ok (all term)
      | .ok terms => .ok (.node .or [] (terms.map all))
      | .error e => .error e
    | .or =>
      match anyOf p.children with
      | .ok terms => .ok (.node .or p.parameters (terms.map all))
      | .error e => .error e

end DocumentStore.Predicate
