import DocumentStore.Json.Written
set_option autoImplicit false

/-!
# Reading typed values from JSON

A reader takes a value of one type from the tree of a text.  It looks only at the parts it needs: a
member that no reader asks for may be anything.  Arrays and objects use up room, so that nesting is
bounded; a reader for a type that contains itself recurses on the room.
-/

namespace DocumentStore

/-- A way to read a value from a tree that may nest `room` deep. -/
abbrev JsonReader (α : Type) := Nat → Written → Option α

namespace JsonReader

open Number

variable {α β : Type}

/-- The value of one reader, changed. -/
def map (f : α → β) (read : JsonReader α) : JsonReader β := fun room w => (read room w).map f

/-- The value of one reader, changed if that is possible. -/
def mapPartial (f : α → Option β) (read : JsonReader α) : JsonReader β :=
  fun room w => (read room w).bind f

/-! ## Single values -/

/-- A string. -/
def text : JsonReader String
  | _, .text s => s
  | _, _ => none

/-- A truth value. -/
def boolean : JsonReader Bool
  | _, .boolean b => some b
  | _, _ => none

/-- A whole number in a range.  One with a point or an exponent is not taken for whole. -/
def integer (least greatest : Int) : JsonReader Int
  | _, .number (some (.natural n)) => if Int.ofNat n ≤ greatest then some (Int.ofNat n) else none
  | _, .number (some (.negative n)) => if least ≤ n then some n else none
  | _, _ => none

/-- A whole number from `-bound` up to `bound - 1`. -/
def signed (bound : Nat) : JsonReader Int := integer (-Int.ofNat bound) (Int.ofNat bound - 1)

/-- A whole number of 32 bits. -/
def int32 : JsonReader Int := signed (Nat.pow 2 31)

/-- A whole number of 64 bits. -/
def int64 : JsonReader Int := signed Text.signedBound

/-- A natural number of 64 bits. -/
def size : JsonReader Nat := map Int.toNat (integer 0 (Int.ofNat Text.wordBound - 1))

/-- A byte. -/
def byte : JsonReader UInt8 := map (fun n => UInt8.ofNat n.toNat) (integer 0 255)

/-- A double; a whole number stands for the nearest one. -/
def double : JsonReader Double
  | _, .number (some (.natural n)) => some (.ofInt (Int.ofNat n))
  | _, .number (some (.negative n)) => some (.ofInt n)
  | _, .number (some (.float x)) => some x
  | _, _ => none

/-- A single-precision number; any other number stands for the nearest one. -/
def single : JsonReader Single
  | _, .number (some (.natural n)) => some (.nearest false n 1)
  | _, .number (some (.negative n)) => some (.nearest true n.natAbs 1)
  | _, .number (some (.float x)) => some (.ofDouble x)
  | _, _ => none

/-- Any value. -/
def json : JsonReader Json := fun room w => w.value? room

/-- A value, or null for none. -/
def nullable (read : JsonReader α) : JsonReader (Option α)
  | _, .null => some none
  | room, w => (read room w).map some

/-! ## Arrays and objects -/

/-- An array of values. -/
def list (read : JsonReader α) : JsonReader (List α)
  | room + 1, .array items => items.mapM (read room)
  | _, _ => none

/-- The members of an object added to a map, a later one in the place of an earlier one. -/
def insertMembers (read : Written → Option α) :
    List (Option String × Written) → SortedMap String α → Option (SortedMap String α)
  | [], m => some m
  | (key, w) :: rest, m =>
    match key, read w with
    | some key, some a => insertMembers read rest (m.insert key a)
    | _, _ => none

/-- An object as a map. -/
def dictionary (read : JsonReader α) : JsonReader (SortedMap String α)
  | room + 1, .object members => insertMembers (read room) members ∅
  | _, _ => none

/-- The members of a record that are present. -/
structure Fields where
  /-- Whether they were given by name, rather than by position. -/
  named : Bool
  values : List (String × Written)

namespace Fields

/-- The members of a record of the given fields: by name, where others are passed over but none may
be repeated, or by position, where there may be no more than the fields. -/
def ofWritten? (names : List String) : Written → Option Fields
  | .object members => do
    let members ← members.mapM fun (key, w) => key.map (·, w)
    let known := members.filter fun m => m.1 ∈ names
    if (known.map (·.1)).Nodup then some ⟨true, known⟩ else none
  | .array items => if items.length ≤ names.length then some ⟨false, names.zip items⟩ else none
  | _ => none

/-- The tree of a field. -/
def find? (f : Fields) (name : String) : Option Written :=
  (f.values.find? (·.1 = name)).map (·.2)

/-- A field that must be present. -/
def required (f : Fields) (room : Nat) (name : String) (read : JsonReader α) : Option α :=
  f.find? name >>= read room

/-- A field with a value of its own if it is left out. -/
def orElse (f : Fields) (room : Nat) (name : String) (read : JsonReader α) (default : α) :
    Option α :=
  match f.find? name with
  | some w => read room w
  | none => some default

/-- A field that may be null and, given by name, be left out for the same. -/
def optional (f : Fields) (room : Nat) (name : String) (read : JsonReader α) : Option (Option α) :=
  match f.find? name with
  | some w => nullable read room w
  | none => if f.named then some none else none

end Fields

/-- A record of the given fields. -/
def record (names : List String) (build : Fields → Nat → Option α) : JsonReader α
  | room + 1, w => (Fields.ofWritten? names w).bind fun f => build f room
  | 0, _ => none

/-- One of several named forms.  A form without content is written as its name; any other as an
object with one member, whose key is the name and whose value is the content. -/
def variant (bare? : String → Option α) (content? : String → Option (JsonReader α)) : JsonReader α
  | _, .text name => name.bind bare?
  | room + 1, .object [(some name, w)] =>
    match bare? name, content? name with
    | some a, _ => if w matches .null then some a else none
    | none, some read => read room w
    | none, none => none
  | _, _ => none

/-- One of several names. -/
def name (bare? : String → Option α) : JsonReader α := variant bare? fun _ => none

/-- A tag and what is left beside it: of an object with exactly one member of that name, or of an
array, whose first item is the tag. -/
def splitTag? (tag : String) : Written → Option (Written × Written)
  | .object members =>
    match members.partition fun m => m.1 = some tag with
    | ([(_, w)], others) => some (w, .object others)
    | _ => none
  | .array (w :: others) => some (w, .array others)
  | _ => none

/-- The value that a whole text is read as. -/
def ofText? (read : JsonReader α) (s : String) : Option α :=
  Written.ofText? s >>= read Written.depthBound

end JsonReader

end DocumentStore
