import DocumentStore.Time.Calendar
import DocumentStore.Text.Numeral
set_option autoImplicit false

/-!
# Instants

An instant is a number of seconds from 1970-01-01T00:00:00Z and nanoseconds after that second.
Nanoseconds of a second billion stand for a leap second after the 59th.  The written form is that of
RFC 3339 in Coordinated Universal Time, with the fewest of 0, 3, 6 or 9 fraction digits that lose
nothing.
-/

namespace DocumentStore

/-- An instant with nanosecond precision. -/
structure Timestamp where
  seconds : Int
  nanos : Nat
  deriving DecidableEq, Repr, Inhabited

namespace Timestamp

instance : Ord Timestamp := ⟨compareLex (compareOn seconds) (compareOn nanos)⟩

/-- Whole microseconds from 1970-01-01T00:00:00Z, rounded down. -/
def micros (t : Timestamp) : Int := t.seconds * 1000000 + t.nanos / 1000

open Time Text

/-- A year as four digits; outside 0 to 9999 with its sign. -/
def yearText (year : Int) : String :=
  if 0 ≤ year ∧ year ≤ 9999 then padded 4 year.toNat
  else (if year < 0 then "-" else "+") ++ padded 4 year.natAbs

/-- The fraction of a second. -/
def fractionText (nanos : Nat) : String :=
  if nanos = 0 then ""
  else if nanos % 1000000 = 0 then "." ++ padded 3 (nanos / 1000000)
  else if nanos % 1000 = 0 then "." ++ padded 6 (nanos / 1000)
  else "." ++ padded 9 nanos

/-- The written form of an instant. -/
def toText (t : Timestamp) : String :=
  let date := Date.ofDays (t.seconds / 86400)
  let second := (t.seconds % 86400).toNat
  let leap := t.nanos / 1000000000
  let shown := second % 60 + leap
  yearText date.year ++ "-" ++ padded 2 date.month ++ "-" ++ padded 2 date.day ++ "T" ++
    padded 2 (second / 3600) ++ ":" ++ padded 2 (second / 60 % 60) ++ ":" ++ padded 2 shown ++
    fractionText (t.nanos % 1000000000) ++ "Z"

end Timestamp

end DocumentStore
