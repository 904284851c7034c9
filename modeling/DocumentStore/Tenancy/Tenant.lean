set_option autoImplicit false

/-!
# Tenants

The owner of separated data, known by a domain, an e-mail address or any other value.
-/

namespace DocumentStore

/-- An isolated owner of data. -/
inductive Tenant where
  | domain (value : String)
  | email (value : String)
  | value (value : String)
  deriving DecidableEq, Repr, Inhabited

namespace Tenant

/-- The value without its type. -/
def rawValue : Tenant → String
  | .domain v => v
  | .email v => v
  | .value v => v

/-- The tenant as messages show it. -/
def describe : Tenant → String
  | .domain v => "domain:" ++ v
  | .email v => "email:" ++ v
  | .value v => "value:" ++ v

end Tenant

end DocumentStore
