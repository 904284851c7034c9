import DocumentStore.Json.Basic
import DocumentStore.Number.Scaled
import DocumentStore.Text.Numeral
set_option autoImplicit false

/-!
# JSON as it is written

A text is first read into the tree of what stands there: members in their order and with their
repetitions, and numbers and strings that have no value (a number too large, an unpaired surrogate)
still in their place.  A part that nobody asks for may have no value; `Written.value?` asks for all
of it.
-/

namespace DocumentStore

/-- The tree of a JSON text. -/
inductive Written where
  | null
  | boolean (b : Bool)
  | number (value : Option JsonNumber)
  | text (value : Option String)
  | array (items : List Written)
  | object (members : List (Option String × Written))
  deriving Repr, Inhabited

namespace Written

open Text

/-- The text from its first character that is not a blank of JSON. -/
def skipSpace (s : List Char) : List Char :=
  s.dropWhile fun c => c = ' ' || c = '\n' || c = '\t' || c = '\r'

/-! ## Numbers -/

/-- A numeral by its parts: sign, digits before and after the point, exponent. -/
structure Numeral where
  negative : Bool
  whole : List Nat
  fraction : Option (List Nat)
  exponent : Option (Bool × Nat)
  deriving DecidableEq, Repr, Inhabited

/-- The digits at the front of a text, and the rest. -/
def digitRun : List Char → List Nat × List Char
  | [] => ([], [])
  | c :: rest =>
    match digitValue? c with
    | some d => let (ds, tail) := digitRun rest; (d :: ds, tail)
    | none => ([], c :: rest)

/-- The number with given digits. -/
def ofDigits (digits : List Nat) : Nat := digits.foldl (fun n d => n * 10 + d) 0

/-- Appends digits to a number while it stays below `2 ^ 64`; also the number of digits left. -/
def absorb (n : Nat) : List Nat → Nat × Nat
  | [] => (n, 0)
  | d :: rest => if n * 10 + d < wordBound then absorb (n * 10 + d) rest else (n, rest.length + 1)

/-- An exponent beyond this is taken for infinite. -/
def exponentBound : Nat := Nat.pow 2 31

/-- The double of a numeral with a point, an exponent, or too many digits.  Digits that would carry
the number beyond 64 bits only count for the scale, those of the fraction not at all. -/
def Numeral.float? (n : Numeral) : Option Double :=
  let (leading, dropped) := absorb 0 n.whole
  let fraction := n.fraction.getD []
  let (digits, ignored) := absorb leading fraction
  let scale : Int := Int.ofNat dropped - Int.ofNat (fraction.length - ignored)
  let magnitude := match n.exponent with
    | none => Double.scaled digits scale
    | some (down, e) =>
      if exponentBound ≤ e then if down || digits = 0 then some Double.zero else none
      else Double.scaled digits (if down then scale - e else scale + e)
  magnitude.map fun x => .ofMagnitude n.negative x.magnitude

/-- The value of a numeral, unless it is too large.  Minus zero is floating point. -/
def Numeral.value? (n : Numeral) : Option JsonNumber :=
  match n.fraction, n.exponent with
  | none, none =>
    let whole := ofDigits n.whole
    if !n.negative && whole < wordBound then some (.natural whole)
    else if n.negative && 0 < whole && whole ≤ signedBound then some (.negative (-Int.ofNat whole))
    else n.float?.map .float
  | _, _ => n.float?.map .float

/-- The fraction of a numeral: a point and at least one digit, or nothing. -/
def fraction? (s : List Char) : Option (Option (List Nat) × List Char) :=
  match s with
  | '.' :: rest =>
    match digitRun rest with
    | ([], _) => none
    | (ds, rest) => some (some ds, rest)
  | s => some (none, s)

/-- The exponent of a numeral: whether it points down, and its size. -/
def exponent? (s : List Char) : Option (Option (Bool × Nat) × List Char) :=
  let read (down : Bool) (s : List Char) : Option (Option (Bool × Nat) × List Char) :=
    match digitRun s with
    | ([], _) => none
    | (ds, rest) => some (some (down, ofDigits ds), rest)
  match s with
  | 'e' :: '-' :: rest | 'E' :: '-' :: rest => read true rest
  | 'e' :: '+' :: rest | 'E' :: '+' :: rest => read false rest
  | 'e' :: rest | 'E' :: rest => read false rest
  | s => some (none, s)

/-- A numeral without its sign; a leading zero stands alone. -/
def numeral? (negative : Bool) (s : List Char) : Option (Numeral × List Char) :=
  match digitRun s with
  | ([], _) => none
  | (0 :: _ :: _, _) => none
  | (whole, rest) =>
    match fraction? rest with
    | none => none
    | some (fraction, rest) =>
      match exponent? rest with
      | none => none
      | some (exponent, rest) => some (⟨negative, whole, fraction, exponent⟩, rest)

/-! ## Strings -/

/-- A piece of a string: a character, or a 16-bit unit written as an escape. -/
inductive Piece where
  | char (c : Char)
  | unit (n : Nat)
  deriving DecidableEq, Repr, Inhabited

/-- The value of a hexadecimal digit. -/
def hexValue? (c : Char) : Option Nat :=
  if '0' ≤ c ∧ c ≤ '9' then some (c.toNat - '0'.toNat)
  else if 'a' ≤ c ∧ c ≤ 'f' then some (c.toNat - 'a'.toNat + 10)
  else if 'A' ≤ c ∧ c ≤ 'F' then some (c.toNat - 'A'.toNat + 10)
  else none

/-- The unit of four hexadecimal digits. -/
def unit? (a b c d : Char) : Option Nat := do
  some ((((← hexValue? a) * 16 + (← hexValue? b)) * 16 + (← hexValue? c)) * 16 + (← hexValue? d))

/-- The character of a short escape. -/
def shortEscape? (c : Char) : Option Char :=
  match c with
  | '"' => some '"'
  | '\\' => some '\\'
  | '/' => some '/'
  | 'b' => some '\x08'
  | 'f' => some '\x0c'
  | 'n' => some '\n'
  | 'r' => some '\r'
  | 't' => some '\t'
  | _ => none

/-- The pieces of a string up to its closing quote, and the text after it. -/
def pieces? : List Char → Option (List Piece × List Char)
  | [] => none
  | '"' :: rest => some ([], rest)
  | '\\' :: 'u' :: a :: b :: c :: d :: rest =>
    match unit? a b c d, pieces? rest with
    | some n, some (ps, rest) => some (.unit n :: ps, rest)
    | _, _ => none
  | '\\' :: c :: rest =>
    match shortEscape? c, pieces? rest with
    | some c, some (ps, rest) => some (.char c :: ps, rest)
    | _, _ => none
  | c :: rest =>
    if c.toNat < 0x20 ∨ c = '\\' then none
    else (pieces? rest).map fun (ps, rest) => (.char c :: ps, rest)

/-- The characters of pieces: a high surrogate joins the low one right after it. -/
def assemble? : List Piece → Option (List Char)
  | [] => some []
  | .char c :: rest => (assemble? rest).map (c :: ·)
  | .unit n :: rest =>
    if n < 0xD800 ∨ 0xE000 ≤ n then (assemble? rest).map (Char.ofNat n :: ·)
    else
      match rest with
      | .unit m :: rest =>
        if n < 0xDC00 ∧ 0xDC00 ≤ m ∧ m < 0xE000 then
          (assemble? rest).map (Char.ofNat (0x10000 + (n - 0xD800) * 0x400 + (m - 0xDC00)) :: ·)
        else none
      | _ => none

/-- A string after its opening quote; it has a value if its surrogates pair up. -/
def string? (s : List Char) : Option (Option String × List Char) :=
  (pieces? s).map fun (ps, rest) => ((assemble? ps).map String.ofList, rest)

/-! ## Values -/

mutual

/-- A value at the front of a text.  The fuel bounds the number of values and is never exhausted if
it exceeds the length of the text. -/
def value (fuel : Nat) (s : List Char) : Option (Written × List Char) :=
  match fuel with
  | 0 => none
  | fuel + 1 =>
    match skipSpace s with
    | 'n' :: 'u' :: 'l' :: 'l' :: rest => some (.null, rest)
    | 't' :: 'r' :: 'u' :: 'e' :: rest => some (.boolean true, rest)
    | 'f' :: 'a' :: 'l' :: 's' :: 'e' :: rest => some (.boolean false, rest)
    | '"' :: rest => (string? rest).map fun (v, rest) => (.text v, rest)
    | '[' :: rest =>
      match skipSpace rest with
      | ']' :: rest => some (.array [], rest)
      | rest => (items fuel rest).map fun (vs, rest) => (.array vs, rest)
    | '\x7b' :: rest =>
      match skipSpace rest with
      | '\x7d' :: rest => some (.object [], rest)
      | rest => (members fuel rest).map fun (ms, rest) => (.object ms, rest)
    | '-' :: rest => (numeral? true rest).map fun (n, rest) => (.number n.value?, rest)
    | s => (numeral? false s).map fun (n, rest) => (.number n.value?, rest)

/-- The items of an array up to its closing bracket. -/
def items (fuel : Nat) (s : List Char) : Option (List Written × List Char) :=
  match fuel with
  | 0 => none
  | fuel + 1 =>
    match value fuel s with
    | none => none
    | some (v, rest) =>
      match skipSpace rest with
      | ']' :: rest => some ([v], rest)
      | ',' :: rest => (items fuel rest).map fun (vs, rest) => (v :: vs, rest)
      | _ => none

/-- The members of an object up to its closing brace. -/
def members (fuel : Nat) (s : List Char) : Option (List (Option String × Written) × List Char) :=
  match fuel with
  | 0 => none
  | fuel + 1 =>
    match skipSpace s with
    | '"' :: rest =>
      match string? rest with
      | none => none
      | some (k, rest) =>
        match skipSpace rest with
        | ':' :: rest =>
          match value fuel rest with
          | none => none
          | some (v, rest) =>
            match skipSpace rest with
            | '\x7d' :: rest => some ([(k, v)], rest)
            | ',' :: rest => (members fuel rest).map fun (ms, rest) => ((k, v) :: ms, rest)
            | _ => none
        | _ => none
    | _ => none

end

/-- The tree of a whole text. -/
def ofText? (s : String) : Option Written :=
  let chars := s.toList
  match value (2 * chars.length + 2) chars with
  | some (v, rest) => if skipSpace rest = [] then some v else none
  | none => none

/-- How deep arrays and objects may nest. -/
def depthBound : Nat := 127

mutual

/-- The value of a tree, in which every part has one and nests at most `room` deep.  Of repeated
keys the last counts. -/
def value? (room : Nat) : Written → Option Json
  | .null => some .null
  | .boolean b => some (.boolean b)
  | .number n => n.map .number
  | .text s => s.map .text
  | .array vs => if room = 0 then none else (itemValues? (room - 1) vs).map .array
  | .object ms => if room = 0 then none else (memberValues? (room - 1) ms []).map .object

/-- The values of the items of an array. -/
def itemValues? (room : Nat) : List Written → Option (List Json)
  | [] => some []
  | v :: rest =>
    match value? room v, itemValues? room rest with
    | some v, some vs => some (v :: vs)
    | _, _ => none

/-- The members of an object added to the ones before them. -/
def memberValues? (room : Nat) :
    List (Option String × Written) → List (String × Json) → Option (List (String × Json))
  | [], seen => some seen
  | (k, v) :: rest, seen =>
    match k, value? room v with
    | some k, some v => memberValues? room rest (SortedMap.insertEntry k v seen)
    | _, _ => none

end

end Written

/-- The value of a JSON text. -/
def Json.ofText? (s : String) : Option Json :=
  Written.ofText? s >>= Written.value? Written.depthBound

end DocumentStore
