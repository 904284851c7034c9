import DocumentStore.Column.Value
set_option autoImplicit false

/-!
# Predicates over columns

A predicate is a tree: each node joins its own parameters and its children by "and" or by "or".  The
node without parameters and children, at the root, stands for no condition at all.
-/

namespace DocumentStore

/-- A comparison of a column with a value. -/
inductive Operator where
  | equal
  | greaterThan
  | lessThan
  | greaterOrEqual
  | lessOrEqual
  | notEqual
  deriving DecidableEq, Repr, Inhabited

/-- The name of the operator. -/
def Operator.name : Operator → String
  | .equal => "Equal"
  | .greaterThan => "GreaterThan"
  | .lessThan => "LessThan"
  | .greaterOrEqual => "GreaterOrEqual"
  | .lessOrEqual => "LessOrEqual"
  | .notEqual => "NotEqual"

/-- One comparison in a predicate. -/
structure Parameter where
  column : String
  operator : Operator
  value : ColumnValue
  deriving Repr, Inhabited

/-- How a node joins its parts. -/
inductive Connective where
  | and
  | or
  deriving DecidableEq, Repr, Inhabited

/-- A node with its own parameters and its children. -/
inductive Predicate where
  | node (connective : Connective) (parameters : List Parameter) (children : List Predicate)
  deriving Repr, Inhabited

namespace Predicate

/-- How the root joins its parts. -/
def connective : Predicate → Connective
  | .node c _ _ => c

/-- The root's own parameters. -/
def parameters : Predicate → List Parameter
  | .node _ ps _ => ps

/-- The children of the root. -/
def children : Predicate → List Predicate
  | .node _ _ cs => cs

/-- All of the parameters. -/
def all (parameters : List Parameter) : Predicate := .node .and parameters []

/-- Any of the parameters. -/
def any (parameters : List Parameter) : Predicate := .node .or parameters []

/-- No condition. -/
def empty : Predicate := all []

/-- Whether the root has neither parameters nor children. -/
def isEmpty (p : Predicate) : Bool := p.parameters.isEmpty && p.children.isEmpty

/-- Whether this is the predicate of no condition as `empty` builds it. -/
def isDefault (p : Predicate) : Bool := p.isEmpty && p.connective == .and

mutual

/-- The truth of a predicate, given that of its parameters. -/
def eval (holds : Parameter → Bool) : Predicate → Bool
  | .node .and ps cs => ps.all holds && evalAll holds cs
  | .node .or ps cs => ps.any holds || evalAny holds cs

/-- Whether all of the predicates are true. -/
def evalAll (holds : Parameter → Bool) : List Predicate → Bool
  | [] => true
  | p :: rest => eval holds p && evalAll holds rest

/-- Whether any of the predicates is true. -/
def evalAny (holds : Parameter → Bool) : List Predicate → Bool
  | [] => false
  | p :: rest => eval holds p || evalAny holds rest

end

end Predicate

end DocumentStore
