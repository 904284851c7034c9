import DocumentStore.Predicate.Basic
set_option autoImplicit false

/-!
# What can go wrong

Each way an operation can fail is a cause; `StorageError.message` gives the text for it.  A failure
inside a transaction is wrapped with the kind of operation that failed, and a failed call of the
store can be told what it was made for.
-/

namespace DocumentStore

/-- What an operation was doing to the store. -/
inductive OperationKind where
  | read
  | write
  | commit
  | rollback
  deriving DecidableEq, Repr, Inhabited

/-- The kind of operation as messages show it. -/
def OperationKind.describe : OperationKind → String
  | .read => "ReadOperation"
  | .write => "WriteOperation"
  | .commit => "CommitOperation"
  | .rollback => "RollbackOperation"

/-- The kind of operation that messages show as a name. -/
def OperationKind.ofName? (name : String) : Option OperationKind :=
  [.read, .write, .commit, .rollback].find? (·.describe = name)

/-- Why an operation failed. -/
inductive StorageError where
  | configuration (text : String)
  | unmappedColumnType (type : ValueType)
  | unsupportedOperator (operator : Operator)
  /-- A group of conditions without a condition. -/
  | emptyConjunction
  | namespaceNotFound (name : String)
  /-- A failure of an operation that ran in a transaction. -/
  | transaction (operation : OperationKind) (source : StorageError)
  | transactionAlreadyActive
  | noActiveTransaction
  | transactionFinished
  | closed
  /-- A failed call of the store. -/
  | backend (context message : String)
  | batchLimitExceeded (limit requested : Nat)
  /-- A text that is not the written form of what was asked for. -/
  | serialization
  | invalidIdentifier (text : String)
  deriving DecidableEq, Repr, Inhabited

namespace StorageError

/-- The text of a failure. -/
def message : StorageError → String
  | .configuration text => "Configuration error: " ++ text
  | .unmappedColumnType type => "No column mapping registered for type " ++ type.describe
  | .unsupportedOperator operator =>
    "Comparison operator " ++ operator.name ++ " has no native filter equivalent"
  | .emptyConjunction => "Conjunctive filter group must contain at least one parameter"
  | .namespaceNotFound name => "Namespace not found in the datastore: " ++ Text.quoted name
  | .transaction operation source => operation.describe ++ " failed: " ++ source.message
  | .transactionAlreadyActive => "A transaction is already active on this handle"
  | .noActiveTransaction => "No active transaction on this handle"
  | .transactionFinished => "Transaction is already committed or rolled back"
  | .closed => "Storage is closed"
  | .backend context message => "Datastore call failed (" ++ context ++ "): " ++ message
  | .batchLimitExceeded limit requested =>
    "Datastore call exceeds the per-call limit of " ++ toString limit ++ " items (requested " ++
      toString requested ++ ")"
  | .serialization => "Serialization error: malformed text"
  | .invalidIdentifier text => "Invalid identifier: " ++ text

/-- The name of the cause, without what it is about. -/
def name : StorageError → String
  | .configuration _ => "Configuration"
  | .unmappedColumnType _ => "UnmappedColumnType"
  | .unsupportedOperator _ => "UnsupportedOperator"
  | .emptyConjunction => "EmptyConjunction"
  | .namespaceNotFound _ => "NamespaceNotFound"
  | .transaction _ _ => "Transaction"
  | .transactionAlreadyActive => "TransactionAlreadyActive"
  | .noActiveTransaction => "NoActiveTransaction"
  | .transactionFinished => "TransactionFinished"
  | .closed => "Closed"
  | .backend _ _ => "Backend"
  | .batchLimitExceeded _ _ => "BatchLimitExceeded"
  | .serialization => "Serialization"
  | .invalidIdentifier _ => "InvalidIdentifier"

/-- Says in front of a failed call's context what the call was made for. -/
def withContext (e : StorageError) (context : String) : StorageError :=
  match e with
  | .backend inner message => .backend (context ++ "; " ++ inner) message
  | e => e

/-- Reports a failure as that of an operation in a transaction. -/
def inOperation (e : StorageError) (operation : OperationKind) : StorageError :=
  .transaction operation e

/-- The failures that caused this one, nearest first. -/
def causes : StorageError → List StorageError
  | .transaction _ source => source :: source.causes
  | _ => []

end StorageError

/-- An operation's answer. -/
abbrev Outcome (α : Type) := Except StorageError α

namespace Outcome

variable {α β : Type}

@[simp] theorem ok_bind (a : α) (f : α → Outcome β) : (Except.ok a >>= f : Outcome β) = f a := rfl

@[simp] theorem error_bind (e : StorageError) (f : α → Outcome β) :
    (Except.error e >>= f : Outcome β) = .error e := rfl

/-- A step that succeeded after another one: both did. -/
theorem bind_eq_ok {x : Outcome α} {f : α → Outcome β} {b : β} (h : x >>= f = .ok b) :
    ∃ a, x = .ok a ∧ f a = .ok b := by
  cases x with
  | error e => cases h
  | ok a => exact ⟨a, rfl, h⟩

end Outcome

end DocumentStore
