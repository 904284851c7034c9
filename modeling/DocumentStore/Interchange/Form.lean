import DocumentStore.Fault
import DocumentStore.Json.Reader
import DocumentStore.Uuid
import DocumentStore.Time.Reader
set_option autoImplicit false

/-!
# Interchange forms

The values that programs exchange have a JSON form: records are objects of their fields in order,
alternatives are named, bytes are arrays of numbers, and instants and identifiers are strings.
-/

namespace DocumentStore

/-- A type whose values are written as JSON and read from it. -/
class JsonForm (α : Type) where
  /-- The text of a value. -/
  write : α → String
  /-- The value of a tree. -/
  read : JsonReader α

namespace JsonForm

/-- The value of a text. -/
def ofText {α : Type} [JsonForm α] (s : String) : Outcome α :=
  match JsonReader.ofText? read s with
  | some a => .ok a
  | none => .error .serialization

/-- A value with its name in front. -/
def writeVariant (name content : String) : String := Json.objectText [(name, content)]

/-- The text of a truth value. -/
def writeBoolean (b : Bool) : String := if b then "true" else "false"

instance : JsonForm String := ⟨Json.textText, JsonReader.text⟩

instance : JsonForm Bool := ⟨writeBoolean, JsonReader.boolean⟩

instance : JsonForm Double := ⟨Json.doubleText, JsonReader.double⟩

instance : JsonForm Single := ⟨Json.singleText, JsonReader.single⟩

instance : JsonForm Json := ⟨Json.render, JsonReader.json⟩

instance : JsonForm UInt8 := ⟨fun b => toString b.toNat, JsonReader.byte⟩

instance : JsonForm Uuid :=
  ⟨fun u => Json.textText u.toText, JsonReader.mapPartial Uuid.ofText? JsonReader.text⟩

instance : JsonForm Timestamp :=
  ⟨fun t => Json.textText t.toText, JsonReader.mapPartial Timestamp.ofText? JsonReader.text⟩

instance {α : Type} [JsonForm α] : JsonForm (List α) :=
  ⟨fun items => Json.arrayText (items.map write), JsonReader.list read⟩

instance {α : Type} [JsonForm α] : JsonForm (SortedMap String α) :=
  ⟨fun m => Json.objectText (m.entries.map fun e => (e.1, write e.2)), JsonReader.dictionary read⟩

instance {α : Type} [JsonForm α] : JsonForm (Option α) :=
  ⟨fun a => match a with
    | some a => write a
    | none => "null", JsonReader.nullable read⟩

end JsonForm

end DocumentStore
