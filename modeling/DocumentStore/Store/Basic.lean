import DocumentStore.Action
import DocumentStore.Document.Query
set_option autoImplicit false

/-!
# The store and its state

The store holds the properties of each key, answers calls with bounded numbers of items, counts the
calls, and can be told to fail one.  `Store.active` counts the transactions that are begun and not
yet released.
-/

namespace DocumentStore

/-- The kinds of data calls. -/
inductive CallKind where
  | lookup
  | put
  | delete
  | query
  deriving DecidableEq, Repr, Inhabited

/-- Numbers of calls, by kind. -/
structure CallCounts where
  lookups : Nat
  puts : Nat
  deletes : Nat
  queries : Nat
  deriving DecidableEq, Repr, Inhabited

namespace CallCounts

/-- No calls. -/
def zero : CallCounts := ⟨0, 0, 0, 0⟩

/-- The number of calls of one kind. -/
def of (c : CallCounts) : CallKind → Nat
  | .lookup => c.lookups
  | .put => c.puts
  | .delete => c.deletes
  | .query => c.queries

/-- One more call of a kind. -/
def bump (c : CallCounts) : CallKind → CallCounts
  | .lookup => { c with lookups := c.lookups + 1 }
  | .put => { c with puts := c.puts + 1 }
  | .delete => { c with deletes := c.deletes + 1 }
  | .query => { c with queries := c.queries + 1 }

/-- The numbers in the order lookup, put, delete, query. -/
def toList (c : CallCounts) : List Nat := [c.lookups, c.puts, c.deletes, c.queries]

end CallCounts

/-- Where a failure can be made to happen. -/
inductive FailurePoint where
  | call (kind : CallKind)
  | commit
  | start
  | rollback
  | listNamespaces
  deriving DecidableEq, Repr, Inhabited

/-- The point as messages show it. -/
def FailurePoint.describe : FailurePoint → String
  | .call .lookup => "Lookup"
  | .call .put => "Put"
  | .call .delete => "Delete"
  | .call .query => "Query"
  | .commit => "Commit"
  | .start => "Begin"
  | .rollback => "Rollback"
  | .listNamespaces => "ListNamespaces"

/-- Every point. -/
def FailurePoint.all : List FailurePoint :=
  [.call .lookup, .call .put, .call .delete, .call .query, .commit, .start, .rollback,
    .listNamespaces]

/-- The point that messages show as a name. -/
def FailurePoint.ofName? (name : String) : Option FailurePoint := all.find? (·.describe = name)

/-- How many items one call may carry. -/
structure BatchLimits where
  read : Nat
  write : Nat
  deriving DecidableEq, Repr, Inhabited

/-- A thousand keys for a lookup, five hundred entities for a put or delete. -/
def BatchLimits.standard : BatchLimits := ⟨1000, 500⟩

/-- The state of the store. -/
structure Store where
  documents : SortedMap Key Properties
  limits : BatchLimits
  /-- The most entities of one page, at least one. -/
  pageLimit : Nat
  /-- Transactions begun and not yet released. -/
  active : Nat
  /-- Failures to come, each with its message. -/
  failures : List (FailurePoint × String)
  calls : CallCounts
  deriving DecidableEq

namespace Store

/-- A store without documents. -/
def empty (limits : BatchLimits) (pageLimit : Nat) : Store :=
  { documents := ∅, limits, pageLimit := max pageLimit 1, active := 0, failures := [],
    calls := .zero }

/-- The largest page unless another is asked for. -/
def standardPageLimit : Nat := 1000

instance : Inhabited Store := ⟨empty .standard standardPageLimit⟩

/-- The entity of a key. -/
def find? (s : Store) (k : Key) : Option Entity := (s.documents.get? k).map fun p => ⟨k, p⟩

/-- The entities in key order. -/
def entities (s : Store) : List Entity := s.documents.entries.map fun e => ⟨e.1, e.2⟩

/-- The number of documents. -/
def size (s : Store) : Nat := s.documents.size

/-- The store with an entity put in. -/
def put1 (s : Store) (e : Entity) : Store :=
  { s with documents := s.documents.insert e.key e.properties }

/-- The store with a key removed. -/
def delete1 (s : Store) (k : Key) : Store := { s with documents := s.documents.erase k }

/-- Each value once, where it stands first. -/
def distinct {α : Type} [DecidableEq α] : List α → List α
  | [] => []
  | a :: rest => a :: (distinct rest).filter (· ≠ a)

/-- The namespaces that hold a document, ascending. -/
def namespaces (s : Store) : List Namespace := distinct (s.documents.keys.map (·.space))

/-- Lets the next call at `point` fail. -/
def failNext (s : Store) (point : FailurePoint) (message : String) : Store :=
  { s with failures := s.failures ++ [(point, message)] }

end Store

end DocumentStore
