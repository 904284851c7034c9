import DocumentStore.Tenancy.Naming
import DocumentStore.Tenancy.Tenant
set_option autoImplicit false

/-!
# From tenants to names and back

A converter computes a name for a tenant and reads it back.  The tagged conversion puts a letter for
the type of the tenant in front of its value.  In front of that stand the prefixes of the
deployment, outermost first, each with a full stop.
-/

namespace DocumentStore

/-- A way to write tenants as names. -/
structure TenantCodec where
  encode : Tenant → Outcome String
  decode : String → Outcome Tenant

namespace TenantCodec

/-- The letter for the type of a tenant. -/
def tag : Tenant → Char
  | .domain _ => 'D'
  | .email _ => 'E'
  | .value _ => 'V'

/-- The tenant of a letter and a value. -/
def ofTag? (tag : Char) (value : String) : Option Tenant :=
  match tag with
  | 'D' => some (.domain value)
  | 'E' => some (.email value)
  | 'V' => some (.value value)
  | _ => none

/-- The value behind a letter for its type; a value with the reserved sequence is refused. -/
def tagged : TenantCodec where
  encode tenant :=
    let value := tenant.rawValue
    if Naming.hasReserved value.toList then
      .error (.configuration ("tenant value " ++ Text.quoted value ++
        " contains the reserved sequence " ++ Naming.reservedText))
    else .ok (String.ofList (tag tenant :: value.toList))
  decode name :=
    let unknown : StorageError :=
      .configuration ("namespace " ++ Text.quoted name ++ " has no known tenant type prefix")
    match name.toList with
    | [] => .error unknown
    | c :: rest =>
      match ofTag? c (String.ofList rest) with
      | some tenant => .ok tenant
      | none => .error unknown

/-- The value alone; every name reads back as an untyped value. -/
def raw : TenantCodec where
  encode tenant := .ok tenant.rawValue
  decode name := .ok (.value name)

end TenantCodec

/-- A codec behind the prefixes of a deployment, outermost first. -/
structure NamespaceConverter where
  prefixes : List String
  codec : TenantCodec

namespace NamespaceConverter

/-- Tagged names without a prefix. -/
def tagged : NamespaceConverter := ⟨[], .tagged⟩

/-- The names of a codec without a prefix. -/
def ofCodec (codec : TenantCodec) : NamespaceConverter := ⟨[], codec⟩

/-- Whether a text may stand in front of names. -/
def isPrefixText (text : String) : Bool :=
  !text.isEmpty && !text.toList.contains '@' && !Naming.hasReserved text.toList

/-- Puts a further prefix in front. -/
def prefixed (c : NamespaceConverter) (text : String) : Outcome NamespaceConverter :=
  if isPrefixText text then .ok { c with prefixes := text :: c.prefixes }
  else .error (.configuration ("invalid namespace prefix " ++ Text.quoted text))

/-- What a prefix adds in front of a name. -/
def head (text : String) : String := text ++ "."

/-- The prefixes joined by full stops, if there are any. -/
def prefixText? (c : NamespaceConverter) : Option String :=
  if c.prefixes.isEmpty then none else some (String.intercalate "." c.prefixes)

/-- The converter as messages show it. -/
def describe (c : NamespaceConverter) : String :=
  let shown := match c.prefixText? with
    | some text => "Some(" ++ Text.quoted text ++ ")"
    | none => "None"
  "NamespaceConverter \x7b prefix: " ++ shown ++ ", .. \x7d"

/-- The name computed for a tenant. -/
def encode (c : NamespaceConverter) (tenant : Tenant) : Outcome String := do
  let name ← c.codec.encode tenant
  return c.prefixes.foldr (fun text name => head text ++ name) name

/-- Takes prefixes off a name, outermost first. -/
def stripPrefixes : List String → String → Outcome String
  | [], name => .ok name
  | text :: rest, name =>
    match (head text).toList.isPrefixOf? name.toList with
    | some tail => stripPrefixes rest (String.ofList tail)
    | none =>
      .error (.configuration ("namespace " ++ Text.quoted name ++ " does not start with prefix " ++
        Text.quoted (head text)))

/-- The tenant that a computed name reads back as. -/
def decode (c : NamespaceConverter) (name : String) : Outcome Tenant := do
  let tail ← stripPrefixes c.prefixes name
  c.codec.decode tail

end NamespaceConverter

end DocumentStore
