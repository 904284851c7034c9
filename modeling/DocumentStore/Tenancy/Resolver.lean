import DocumentStore.Tenancy.Converter
set_option autoImplicit false

/-!
# Which namespace a tenant's data is in

With a single tenant everything is in one namespace.  With several, the namespace is computed from
the tenant on whose behalf an operation runs.
-/

namespace DocumentStore

/-- The namespaces of one tenant, or of many. -/
inductive NamespaceResolver where
  | single (space : Namespace)
  | multi (converter : NamespaceConverter)

namespace NamespaceResolver

/-- The resolver of a single tenant in the namespace of a computed name. -/
def singleTenant (encoded : String) : Outcome NamespaceResolver := do
  return .single (← Namespace.ofEncoded encoded)

/-- Whether namespaces depend on the tenant. -/
def isMultitenant : NamespaceResolver → Bool
  | .single _ => false
  | .multi _ => true

/-- The namespace of a tenant. -/
def resolve (r : NamespaceResolver) (tenant : Tenant) : Outcome Namespace :=
  match r with
  | .single space => .ok space
  | .multi converter => do Namespace.ofEncoded (← converter.encode tenant)

/-- The namespace of the tenant an operation runs for, if it runs for one. -/
def current (r : NamespaceResolver) (tenant : Option Tenant) : Outcome Namespace :=
  match r with
  | .single space => .ok space
  | .multi _ =>
    match tenant with
    | some tenant => r.resolve tenant
    | none => .error (.configuration "multitenant storage used without a current tenant")

/-- The failure of asking a single tenant's storage for tenants. -/
def noTenants : StorageError := .configuration "single-tenant storage has no tenant namespaces"

/-- The tenant whose namespace this is. -/
def restore (r : NamespaceResolver) (space : Namespace) : Outcome Tenant :=
  match r with
  | .single _ => .error noTenants
  | .multi converter => converter.decode space.toEncoded

/-- The tenants of those namespaces that belong to one. -/
def tenants (r : NamespaceResolver) (spaces : List Namespace) : List Tenant :=
  spaces.filterMap fun space => (r.restore space).toOption

end NamespaceResolver

end DocumentStore
