import DocumentStore.Configuration
import DocumentStore.Interchange.Form
set_option autoImplicit false

/-!
# Settings in interchange

The forms of a deployment's settings.  Every field of them has a standard value.  The kinds of
tenancy and of converter are told by a tag among their fields; what carries a tag is read as a whole
before its fields are looked at, so no part of it may be without a value.
-/

namespace DocumentStore

open JsonForm JsonReader

namespace ConverterSettings

/-- The text of converter settings. -/
def write : ConverterSettings → String
  | .tagged => Json.objectText [("kind", JsonForm.write "default")]
  | .prefixed text =>
    Json.objectText [("kind", JsonForm.write "prefixed"), ("prefix", JsonForm.write text)]

/-- The prefixed settings of the fields beside the tag. -/
def ofPrefixed? (fields : Written) : Option ConverterSettings := do
  let f ← Fields.ofWritten? ["prefix"] fields
  let s ← f.required 0 "prefix" text
  some (.prefixed s)

/-- The tagged settings; what stands beside the tag by name is passed over. -/
def ofTagged? : Written → Option ConverterSettings
  | .array [] => some .tagged
  | .object _ => some .tagged
  | _ => none

/-- The settings of a tag and the fields beside it. -/
def ofTag? (tag : String) (fields : Written) : Option ConverterSettings :=
  match tag with
  | "default" => ofTagged? fields
  | "prefixed" => ofPrefixed? fields
  | _ => none

/-- The settings of a tree. -/
def read (room : Nat) (w : Written) : Option ConverterSettings := do
  let (tag, fields) ← splitTag? "kind" w
  let _ ← w.value? room
  match tag with
  | .text (some tag) => ofTag? tag fields
  | _ => none

/-- Settings inside others that were read as a whole.  There the tag may also be the place of the
alternative among them. -/
def readInner (_room : Nat) (w : Written) : Option ConverterSettings := do
  let (tag, fields) ← splitTag? "kind" w
  match tag with
  | .text (some tag) => ofTag? tag fields
  | .number (some (.natural 0)) => ofTagged? fields
  | .number (some (.natural 1)) => ofPrefixed? fields
  | _ => none

end ConverterSettings

instance : JsonForm ConverterSettings := ⟨ConverterSettings.write, ConverterSettings.read⟩

namespace TenancySettings

/-- The text of tenancy settings. -/
def write : TenancySettings → String
  | .single space =>
    Json.objectText [("mode", JsonForm.write "single"), ("namespace", JsonForm.write space)]
  | .multi converter =>
    Json.objectText [("mode", JsonForm.write "multi"), ("converter", JsonForm.write converter)]

/-- The settings of a tree. -/
def read (room : Nat) (w : Written) : Option TenancySettings := do
  let (tag, fields) ← splitTag? "mode" w
  let _ ← w.value? room
  match tag with
  | .text (some "single") =>
    let f ← Fields.ofWritten? ["namespace"] fields
    let space ← f.orElse room "namespace" text ""
    some (.single space)
  | .text (some "multi") =>
    let f ← Fields.ofWritten? ["converter"] fields
    let converter ← f.orElse room "converter" ConverterSettings.readInner .tagged
    some (.multi converter)
  | _ => none

end TenancySettings

instance : JsonForm TenancySettings := ⟨TenancySettings.write, TenancySettings.read⟩

instance : JsonForm StorageSettings where
  write s := Json.objectText
    [("tenancy", write s.tenancy), ("transactional", write s.transactional),
     ("read_batch_limit", toString s.limits.read), ("write_batch_limit", toString s.limits.write),
     ("page_size", toString s.pageSize)]
  read :=
    let names :=
      ["tenancy", "transactional", "read_batch_limit", "write_batch_limit", "page_size"]
    let default := StorageSettings.standard
    record names fun f room => do
      let tenancy ← f.orElse room "tenancy" read default.tenancy
      let transactional ← f.orElse room "transactional" read default.transactional
      let reads ← f.orElse room "read_batch_limit" size default.limits.read
      let writes ← f.orElse room "write_batch_limit" size default.limits.write
      let pageSize ← f.orElse room "page_size" size default.pageSize
      some { tenancy, transactional, limits := ⟨reads, writes⟩, pageSize }

end DocumentStore
