import DocumentStore.Time.Timestamp
import DocumentStore.Text.Blank
set_option autoImplicit false

/-!
# Reading written instants

The form of RFC 3339, taken generously: one or two digits where two are written, white space around
the parts, a lower-case `t` or a space between date and time, a signed year, more fraction digits
than count, and `UTC` or `Z` or a signed offset as the zone.  Each reader takes its part off the
front of the text.
-/

namespace DocumentStore.Time

open Text

/-- A run of at least one and at most `most` digits. -/
def number? (most : Nat) (s : List Char) : Option (Nat × List Char) := do
  let run := (s.take most).takeWhile fun c => (digitValue? c).isSome
  let value ← digits? run
  if value < signedBound then some (value, s.drop run.length) else none

/-- A number of at most two digits, from `least` to `greatest`. -/
def field? (least greatest : Nat) (s : List Char) : Option (Nat × List Char) := do
  let (value, rest) ← number? 2 (skipBlank s)
  if least ≤ value ∧ value ≤ greatest then some (value, rest) else none

/-- One given character, after white space. -/
def mark? (c : Char) (s : List Char) : Option (List Char) :=
  match skipBlank s with
  | d :: rest => if d = c then some rest else none
  | [] => none

/-- A year: up to four digits, or a sign and any number of digits. -/
def year? (s : List Char) : Option (Int × List Char) :=
  match skipBlank s with
  | '-' :: rest => (number? rest.length rest).map fun (n, rest) => (-Int.ofNat n, rest)
  | '+' :: rest => (number? rest.length rest).map fun (n, rest) => (Int.ofNat n, rest)
  | s => (number? 4 s).map fun (n, rest) => (Int.ofNat n, rest)

/-- The nanoseconds of an optional fraction; digits after the ninth are passed over. -/
def fraction? (s : List Char) : Option (Nat × List Char) :=
  match s with
  | '.' :: rest => do
    let run := (rest.take 9).takeWhile fun c => (digitValue? c).isSome
    let value ← digits? run
    let tail := (rest.drop run.length).dropWhile fun c => (digitValue? c).isSome
    some (value * Nat.pow 10 (9 - run.length), tail)
  | s => some (0, s)

/-- The two digits of hours or minutes of a zone offset. -/
def twoDigits? (s : List Char) : Option (Nat × List Char) :=
  match s with
  | a :: b :: rest => do
    let tens ← digitValue? a
    let ones ← digitValue? b
    some (tens * 10 + ones, rest)
  | _ => none

/-- The hours and minutes of a zone offset, in seconds. -/
def offset? (s : List Char) : Option (Nat × List Char) := do
  let (hours, rest) ← twoDigits? s
  let (minutes, rest) ← twoDigits? (rest.dropWhile fun c => c = ':' || isBlank c)
  if minutes < 60 then some (hours * 3600 + minutes * 60, rest) else none

/-- The seconds a zone is ahead of Coordinated Universal Time. -/
def zone? (s : List Char) : Option (Int × List Char) :=
  let s := skipBlank s
  if (s.take 3).map Char.toUpper = ['U', 'T', 'C'] then some (0, s.drop 3)
  else
    match s with
    | 'Z' :: rest | 'z' :: rest => some (0, rest)
    | '+' :: rest => (offset? rest).map fun (n, rest) => (Int.ofNat n, rest)
    | '-' :: rest | '−' :: rest => (offset? rest).map fun (n, rest) => (-Int.ofNat n, rest)
    | _ => none

/-- The first and the last year of the calendar. -/
def yearRange : Int × Int := (-262143, 262142)

/-- A date of an existing day in the calendar's years. -/
def date? (s : List Char) : Option (Date × List Char) := do
  let (year, rest) ← year? s
  let rest ← mark? '-' rest
  let (month, rest) ← field? 1 12 rest
  let rest ← mark? '-' rest
  let (day, rest) ← field? 1 31 rest
  let date : Date := ⟨year, month, day⟩
  if date.isValid ∧ yearRange.1 ≤ year ∧ year ≤ yearRange.2 then some (date, rest) else none

/-- Seconds of the day and nanoseconds; a 60th second is a leap second. -/
def clock? (s : List Char) : Option ((Nat × Nat) × List Char) := do
  let (hour, rest) ← field? 0 23 s
  let rest ← mark? ':' rest
  let (minute, rest) ← field? 0 59 rest
  let rest ← mark? ':' rest
  let (second, rest) ← field? 0 60 rest
  let (nanos, rest) ← fraction? rest
  let minutes := (hour * 60 + minute) * 60
  if second = 60 then some ((minutes + 59, nanos + 1000000000), rest)
  else some ((minutes + second, nanos), rest)

/-- The instant of a date, a time of day and a zone offset below a day. -/
def instant? (date : Date) (clock : Nat × Nat) (offset : Int) : Option Timestamp :=
  if offset.natAbs < 86400 then
    let seconds := date.toDays * 86400 + clock.1 - offset
    let first := (Date.mk yearRange.1 1 1).toDays * 86400
    let last := (Date.mk (yearRange.2 + 1) 1 1).toDays * 86400
    if first ≤ seconds ∧ seconds < last then some ⟨seconds, clock.2⟩ else none
  else none

end DocumentStore.Time

namespace DocumentStore.Timestamp

open Time Text

/-- Reads a written instant. -/
def ofText? (s : String) : Option Timestamp := do
  let (date, rest) ← date? s.toList
  let rest ← match rest with
    | 'T' :: rest | 't' :: rest | ' ' :: rest => some rest
    | _ => none
  let (clock, rest) ← clock? rest
  let (offset, rest) ← zone? rest
  if skipBlank rest = [] then instant? date clock offset else none

end DocumentStore.Timestamp
