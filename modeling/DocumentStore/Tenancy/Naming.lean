import DocumentStore.Document.Entity
import DocumentStore.Fault
set_option autoImplicit false

/-!
# Names of namespaces

The name of a namespace must not hold an at sign, so a computed name has every `@` written as the
reserved sequence `-at-`.  A name whose written form would read back as something else, because
there is a reserved sequence in it already or one comes about where two pieces meet, is refused.
-/

namespace DocumentStore

namespace Naming

/-- What is written for an at sign. -/
def reserved : List Char := ['-', 'a', 't', '-']

/-- Writes every at sign as the reserved sequence. -/
def escape : List Char → List Char
  | [] => []
  | c :: rest => if c = '@' then reserved ++ escape rest else c :: escape rest

/-- Reads every reserved sequence, from the left, as an at sign. -/
def unescape : List Char → List Char
  | '-' :: 'a' :: 't' :: '-' :: rest => '@' :: unescape rest
  | c :: rest => c :: unescape rest
  | [] => []

/-- Whether the reserved sequence occurs. -/
def hasReserved : List Char → Bool
  | '-' :: 'a' :: 't' :: '-' :: _ => true
  | _ :: rest => hasReserved rest
  | [] => false

/-- The reserved sequence as messages show it. -/
def reservedText : String := Text.quoted (String.ofList reserved)

end Naming

namespace Namespace

open Naming

/-- The namespace without a name. -/
def default : Namespace := ⟨""⟩

/-- Whether this is the namespace without a name. -/
def isDefault (n : Namespace) : Bool := n.name.isEmpty

/-- The namespace of a computed name. -/
def ofEncoded (encoded : String) : Outcome Namespace :=
  let escaped := escape encoded.toList
  if unescape escaped = encoded.toList then .ok ⟨String.ofList escaped⟩
  else
    .error (.configuration ("encoded namespace " ++ Text.quoted encoded ++
      " is ambiguous with the reserved sequence " ++ reservedText))

/-- The computed name that the namespace's name is read as. -/
def toEncoded (n : Namespace) : String := String.ofList (unescape n.name.toList)

end Namespace

end DocumentStore
