import DocumentStore.Store.Basic
set_option autoImplicit false

/-!
# What is counted

Round trips to the store and the failed ones among them, by kind of call; entities accepted by the
store; and transactions by their outcome.
-/

namespace DocumentStore

/-- The counters of a deployment. -/
structure Metrics where
  roundTrips : CallCounts
  failures : CallCounts
  written : Nat
  committed : Nat
  rolledBack : Nat
  deriving DecidableEq, Repr

namespace Metrics

/-- Nothing counted yet. -/
def zero : Metrics := ⟨.zero, .zero, 0, 0, 0⟩

instance : Inhabited Metrics := ⟨zero⟩

/-- Counts a round trip and whether it succeeded. -/
def observe (m : Metrics) (kind : CallKind) (succeeded : Bool) : Metrics :=
  { m with
    roundTrips := m.roundTrips.bump kind
    failures := if succeeded then m.failures else m.failures.bump kind }

/-- Counts accepted entities. -/
def accept (m : Metrics) (count : Nat) : Metrics := { m with written := m.written + count }

/-- Counts a transaction by whether it was committed. -/
def record (m : Metrics) (committed : Bool) : Metrics :=
  if committed then { m with committed := m.committed + 1 }
  else { m with rolledBack := m.rolledBack + 1 }

end Metrics

end DocumentStore
