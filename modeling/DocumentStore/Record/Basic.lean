import DocumentStore.Column.Mapping
import DocumentStore.Document.Query
import DocumentStore.Json.Written
import DocumentStore.Record.Id
set_option autoImplicit false

/-!
# Records

A record is an identifier, a payload of bytes and named columns.  It is stored as one entity: the
payload in a property of its own, whose name no column may have, and each column in the property of
its name.
-/

namespace DocumentStore

/-- A payload with the columns it can be found by. -/
structure Record (ι : Type) where
  id : ι
  payload : List UInt8
  columns : SortedMap String ColumnValue

/-- The property that holds the payload. -/
def payloadProperty : String := "payload"

/-- Payloads that hold JSON. -/
def jsonPayload (value : Json) : List UInt8 := value.render.toUTF8.toList

/-- The JSON value of a payload. -/
def ofJsonPayload (payload : List UInt8) : Outcome Json :=
  match (String.fromUTF8? ⟨payload.toArray⟩).bind Json.ofText? with
  | some value => .ok value
  | none => .error .serialization

namespace Record

variable {ι : Type} [RecordId ι]

/-- The failure of a column named like the payload's property. -/
def reservedColumn (id : ι) : StorageError :=
  .configuration ("column name " ++ Text.quoted payloadProperty ++ " is reserved (record " ++
    RecordId.describe id ++ ")")

/-- The properties of columns added to others, in the order of their names. -/
def storeColumns (mapping : ColumnMapping) (id : ι) :
    List (String × ColumnValue) → Properties → Outcome Properties
  | [], properties => .ok properties
  | (name, value) :: rest, properties =>
    if name = payloadProperty then .error (reservedColumn id)
    else do
      let stored ← mapping.apply value
      storeColumns mapping id rest (properties.insert name stored)

/-- The entity of a record. -/
def toEntity (mapping : ColumnMapping) (keys : KeyFactory) (r : Record ι) : Outcome Entity := do
  let payload : Properties := SortedMap.insert ∅ payloadProperty (.blob r.payload)
  let properties ← storeColumns mapping r.id r.columns.entries payload
  return ⟨keys.key r.id, properties⟩

/-- The failure of an entity whose payload is no blob. -/
def malformedPayload (key : Key) (value : NativeValue) : StorageError :=
  .backend "decode" (key.toText ++ " has a malformed " ++ Text.quoted payloadProperty ++
    " property: " ++ value.describe)

/-- Reads properties into a record, in the order of their names. -/
def readProperties (key : Key) : List (String × NativeValue) → Record ι → Outcome (Record ι)
  | [], r => .ok r
  | (name, value) :: rest, r =>
    if name = payloadProperty then
      match value with
      | .blob bytes => readProperties key rest { r with payload := bytes }
      | value => .error (malformedPayload key value)
    else
      readProperties key rest { r with columns := r.columns.insert name (.ofNative value) }

/-- The record of an entity.  Columns come back with the types of their stored values. -/
def ofEntity (e : Entity) : Outcome (Record ι) := do
  let id ← RecordId.ofName e.key.name
  readProperties e.key e.properties.entries ⟨id, [], ∅⟩

end Record

/-- What to read of the records of a kind. -/
structure RecordQuery (ι : Type) where
  predicate : Predicate
  /-- Only these identifiers, if given. -/
  ids : Option (List ι)
  order : List SortKey
  limit : Option Nat

end DocumentStore
