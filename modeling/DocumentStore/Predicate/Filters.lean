import DocumentStore.Column.Mapping
import DocumentStore.Document.Query
import DocumentStore.Predicate.NormalForm
set_option autoImplicit false

/-!
# Predicates as filters

The store evaluates one conjunctive filter per query, so a predicate becomes a list of filters, one
for each alternative of its normal form; an entity satisfies the predicate if one of them holds.  No
filter at all stands for no condition.
-/

namespace DocumentStore

/-- The store's comparison for an operator. -/
def Operator.filterOp : Operator → Outcome FilterOp
  | .equal => .ok .equal
  | .greaterThan => .ok .greaterThan
  | .lessThan => .ok .lessThan
  | .greaterOrEqual => .ok .greaterThanOrEqual
  | .lessOrEqual => .ok .lessThanOrEqual
  | .notEqual => .error (.unsupportedOperator .notEqual)

/-- The filter of a parameter. -/
def Parameter.toFilter (mapping : ColumnMapping) (p : Parameter) : Outcome PropertyFilter := do
  let op ← p.operator.filterOp
  let value ← mapping.apply p.value
  return ⟨p.column, op, value⟩

namespace Predicate

/-- The filters of parameters, in order. -/
def filtersOf (mapping : ColumnMapping) : List Parameter → Outcome (List PropertyFilter)
  | [] => .ok []
  | p :: rest => do
    let f ← p.toFilter mapping
    let fs ← filtersOf mapping rest
    return f :: fs

/-- The conjunctive filter of a non-empty group of parameters. -/
def conjunction (mapping : ColumnMapping) (ps : List Parameter) : Outcome ConjunctiveFilter :=
  if ps.isEmpty then .error .emptyConjunction
  else return ⟨← filtersOf mapping ps⟩

/-- The conjunctive filters of groups of parameters, in order. -/
def conjunctions (mapping : ColumnMapping) : List (List Parameter) → Outcome (List ConjunctiveFilter)
  | [] => .ok []
  | ps :: rest => do
    let f ← conjunction mapping ps
    let fs ← conjunctions mapping rest
    return f :: fs

/-- The filters of a predicate. -/
def compile (mapping : ColumnMapping) (p : Predicate) : Outcome (List ConjunctiveFilter) :=
  if p.isEmpty then .ok []
  else do
    let normal ← p.normalize
    match normal.connective with
    | .and => conjunctions mapping [normal.parameters]
    | .or =>
      conjunctions mapping
        (normal.parameters.map (fun parameter => [parameter]) ++ normal.children.map (·.parameters))

end Predicate

end DocumentStore
