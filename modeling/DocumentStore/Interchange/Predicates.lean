import DocumentStore.Interchange.Form
import DocumentStore.Predicate.Basic
set_option autoImplicit false

/-!
# Predicates in interchange

The forms of column values, their types, and predicates over columns.
-/

namespace DocumentStore

open JsonForm JsonReader

/-- The record of a type name and what belongs to a value of that type. -/
def JsonReader.typed {α β : Type} (field : String) (read : JsonReader α) (build : String → α → β) :
    JsonReader β :=
  record ["type_name", field] fun f room => do
    let typeName ← f.required room "type_name" text
    let content ← f.required room field read
    some (build typeName content)

/-- A record of a type name and what belongs to a value of that type. -/
def JsonForm.writeTyped (typeName field content : String) : String :=
  Json.objectText [("type_name", write typeName), (field, content)]

instance : JsonForm ColumnValue where
  write
    | .null => write "Null"
    | .text s => writeVariant "Text" (write s)
    | .int32 n => writeVariant "Int32" (toString n)
    | .int64 n => writeVariant "Int64" (toString n)
    | .float32 x => writeVariant "Float32" (write x)
    | .float64 x => writeVariant "Float64" (write x)
    | .bool b => writeVariant "Bool" (write b)
    | .bytes b => writeVariant "Bytes" (write b)
    | .enumeration type n => writeVariant "Enum" (writeTyped type "ordinal" (toString n))
    | .message type v => writeVariant "Message" (writeTyped type "value" (write v))
    | .timestamp t => writeVariant "Timestamp" (write t)
    | .custom type v => writeVariant "Custom" (writeTyped type "value" (write v))
  read := variant
    (fun
      | "Null" => some .null
      | _ => none)
    (fun
      | "Text" => some (map .text read)
      | "Int32" => some (map .int32 int32)
      | "Int64" => some (map .int64 int64)
      | "Float32" => some (map .float32 read)
      | "Float64" => some (map .float64 read)
      | "Bool" => some (map .bool read)
      | "Bytes" => some (map .bytes read)
      | "Enum" => some (typed "ordinal" int32 .enumeration)
      | "Message" => some (typed "value" json .message)
      | "Timestamp" => some (map .timestamp read)
      | "Custom" => some (typed "value" json .custom)
      | _ => none)

/-- The general type of a name. -/
def ValueType.ofName? : String → Option ValueType
  | "Null" => some .null
  | "Text" => some .text
  | "Int32" => some .int32
  | "Int64" => some .int64
  | "Float32" => some .float32
  | "Float64" => some .float64
  | "Bool" => some .bool
  | "Bytes" => some .bytes
  | "Enum" => some .enumeration
  | "Message" => some .message
  | "Timestamp" => some .timestamp
  | _ => none

instance : JsonForm ValueType where
  write
    | .named type => writeVariant "Named" (write type)
    | type => write type.describe
  read := variant ValueType.ofName? fun
    | "Named" => some (map .named read)
    | _ => none

/-- The operator of a name. -/
def Operator.ofName? : String → Option Operator
  | "Equal" => some .equal
  | "GreaterThan" => some .greaterThan
  | "LessThan" => some .lessThan
  | "GreaterOrEqual" => some .greaterOrEqual
  | "LessOrEqual" => some .lessOrEqual
  | "NotEqual" => some .notEqual
  | _ => none

instance : JsonForm Operator := ⟨fun o => write o.name, name Operator.ofName?⟩

instance : JsonForm Parameter where
  write p := Json.objectText
    [("column", write p.column), ("operator", write p.operator), ("value", write p.value)]
  read := record ["column", "operator", "value"] fun f room => do
    let column ← f.required room "column" read
    let operator ← f.required room "operator" read
    let value ← f.required room "value" read
    some ⟨column, operator, value⟩

/-- The name of a connective. -/
def Connective.name : Connective → String
  | .and => "And"
  | .or => "Or"

/-- The connective of a name. -/
def Connective.ofName? : String → Option Connective
  | "And" => some .and
  | "Or" => some .or
  | _ => none

instance : JsonForm Connective := ⟨fun c => write c.name, name Connective.ofName?⟩

namespace Predicate

mutual

/-- The text of a predicate. -/
def write : Predicate → String
  | .node connective ps cs => Json.objectText
    [("operator", JsonForm.write connective), ("parameters", JsonForm.write ps),
     ("children", Json.arrayText (writeAll cs))]

/-- The texts of predicates. -/
def writeAll : List Predicate → List String
  | [] => []
  | p :: rest => write p :: writeAll rest

end

/-- The predicate of a tree.  Its children are two levels further in: in an array in a record. -/
def read : JsonReader Predicate
  | room + 2, w =>
    let build (f : Fields) : Option Predicate := do
      let connective ← f.required (room + 1) "operator" JsonForm.read
      let parameters ← f.required (room + 1) "parameters" JsonForm.read
      let children ← f.required (room + 1) "children" (fun _ w =>
        match w with
        | .array items => items.mapM (read room)
        | _ => none)
      some (.node connective parameters children)
    (Fields.ofWritten? ["operator", "parameters", "children"] w).bind build
  | _, _ => none

end Predicate

instance : JsonForm Predicate := ⟨Predicate.write, Predicate.read⟩

end DocumentStore
