import DocumentStore.Document.Query
import DocumentStore.Interchange.Form
import DocumentStore.Store.Basic
set_option autoImplicit false

/-!
# Documents and queries in interchange

The forms of stored values, keys, entities, filters and what else a query is made of.
-/

namespace DocumentStore

open JsonForm JsonReader

instance : JsonForm Namespace := ⟨fun n => write n.name, map Namespace.mk read⟩

instance : JsonForm Kind := ⟨fun k => write k.name, map Kind.mk read⟩

instance : JsonForm Cursor := ⟨fun c => write c.token, map Cursor.mk read⟩

instance : JsonForm Key where
  write k := Json.objectText
    [("namespace", write k.space), ("kind", write k.kind), ("name", write k.name)]
  read := record ["namespace", "kind", "name"] fun f room => do
    let space ← f.required room "namespace" read
    let kind ← f.required room "kind" read
    let name ← f.required room "name" read
    some ⟨space, kind, name⟩

instance : JsonForm NativeValue where
  write
    | .null => write "Null"
    | .boolean b => writeVariant "Boolean" (write b)
    | .integer n => writeVariant "Integer" (toString n)
    | .double x => writeVariant "Double" (write x)
    | .string s => writeVariant "String" (write s)
    | .blob b => writeVariant "Blob" (write b)
    | .timestamp t => writeVariant "Timestamp" (write t)
  read := variant
    (fun
      | "Null" => some .null
      | _ => none)
    (fun
      | "Boolean" => some (map .boolean read)
      | "Integer" => some (map .integer int64)
      | "Double" => some (map .double read)
      | "String" => some (map .string read)
      | "Blob" => some (map .blob read)
      | "Timestamp" => some (map .timestamp read)
      | _ => none)

instance : JsonForm Entity where
  write e := Json.objectText [("key", write e.key), ("properties", write e.properties)]
  read := record ["key", "properties"] fun f room => do
    let key ← f.required room "key" read
    let properties ← f.required room "properties" read
    some ⟨key, properties⟩

/-- The operator of a name. -/
def FilterOp.ofName? : String → Option FilterOp
  | "Equal" => some .equal
  | "GreaterThan" => some .greaterThan
  | "LessThan" => some .lessThan
  | "GreaterThanOrEqual" => some .greaterThanOrEqual
  | "LessThanOrEqual" => some .lessThanOrEqual
  | _ => none

instance : JsonForm FilterOp := ⟨fun op => write op.name, name FilterOp.ofName?⟩

instance : JsonForm PropertyFilter where
  write f := Json.objectText
    [("property", write f.property), ("op", write f.op), ("value", write f.value)]
  read := record ["property", "op", "value"] fun f room => do
    let property ← f.required room "property" read
    let op ← f.required room "op" read
    let value ← f.required room "value" read
    some ⟨property, op, value⟩

instance : JsonForm ConjunctiveFilter where
  write f := Json.objectText [("filters", write f.filters)]
  read := record ["filters"] fun f room => do
    let filters ← f.required room "filters" read
    some ⟨filters⟩

/-- The name of a direction. -/
def Direction.name : Direction → String
  | .ascending => "Ascending"
  | .descending => "Descending"

/-- The direction of a name. -/
def Direction.ofName? : String → Option Direction
  | "Ascending" => some .ascending
  | "Descending" => some .descending
  | _ => none

instance : JsonForm Direction := ⟨fun d => write d.name, name Direction.ofName?⟩

instance : JsonForm SortKey where
  write k := Json.objectText [("property", write k.property), ("direction", write k.direction)]
  read := record ["property", "direction"] fun f room => do
    let property ← f.required room "property" read
    let direction ← f.required room "direction" read
    some ⟨property, direction⟩

instance : JsonForm BatchLimits where
  write l := Json.objectText [("read", toString l.read), ("write", toString l.write)]
  read := record ["read", "write"] fun f room => do
    let reads ← f.required room "read" size
    let writes ← f.required room "write" size
    some ⟨reads, writes⟩

end DocumentStore
