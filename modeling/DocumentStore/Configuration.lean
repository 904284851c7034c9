import DocumentStore.Store.Basic
import DocumentStore.Tenancy.Resolver
set_option autoImplicit false

/-!
# Settings of a deployment

How tenants map to namespaces, whether each operation has a transaction of its own, and how much is
asked of the store at once.
-/

namespace DocumentStore

/-- Which converter names the namespaces of several tenants. -/
inductive ConverterSettings where
  /-- Tagged names. -/
  | tagged
  /-- Tagged names behind a prefix. -/
  | prefixed (text : String)
  deriving DecidableEq, Repr, Inhabited

/-- Whether there is one tenant or several. -/
inductive TenancySettings where
  /-- One, whose data is in the namespace of the given computed name. -/
  | single (space : String)
  | multi (converter : ConverterSettings)
  deriving DecidableEq, Repr, Inhabited

/-- The settings of a deployment. -/
structure StorageSettings where
  tenancy : TenancySettings
  /-- Whether each operation has a transaction of its own. -/
  transactional : Bool
  /-- How many items one call of the store may carry. -/
  limits : BatchLimits
  /-- The most entities that scans fetch at once. -/
  pageSize : Nat
  deriving DecidableEq, Repr

namespace StorageSettings

/-- One tenant in the default namespace, calls straight to the store, standard limits. -/
def standard : StorageSettings :=
  { tenancy := .single "", transactional := false, limits := .standard, pageSize := 500 }

instance : Inhabited StorageSettings := ⟨standard⟩

/-- The standard settings with tenants named by tag. -/
def multitenant : StorageSettings := { standard with tenancy := .multi .tagged }

/-- The resolver that the settings ask for. -/
def resolver (s : StorageSettings) : Outcome NamespaceResolver :=
  match s.tenancy with
  | .single space => NamespaceResolver.singleTenant space
  | .multi .tagged => .ok (.multi .tagged)
  | .multi (.prefixed text) => do return .multi (← NamespaceConverter.tagged.prefixed text)

end StorageSettings

end DocumentStore
