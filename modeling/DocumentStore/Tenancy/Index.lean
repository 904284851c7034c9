import DocumentStore.Store.Calls
import DocumentStore.Tenancy.Resolver
set_option autoImplicit false

/-!
# Known namespaces

An index remembers the namespaces that were written to and those that the store listed.  It never
forgets one.  A namespace it does not know makes it ask the store once.
-/

namespace DocumentStore

instance : Std.TransOrd Namespace := inferInstanceAs (Std.TransCmp (compareOn Namespace.name))

instance : Std.LawfulEqOrd Namespace where
  eq_of_compare {a b} h := by
    obtain ⟨a⟩ := a
    obtain ⟨b⟩ := b
    exact congrArg _ (Std.LawfulEqOrd.eq_of_compare (α := String) h)

/-- The namespaces known to hold data, or to have held some. -/
structure NamespaceIndex where
  known : SortedMap Namespace Unit
  deriving DecidableEq

/-- The store and an index over its namespaces. -/
structure Indexed where
  store : Store
  index : NamespaceIndex

namespace NamespaceIndex

/-- An index that knows nothing yet. -/
def empty : NamespaceIndex := ⟨∅⟩

instance : Inhabited NamespaceIndex := ⟨empty⟩

/-- Whether a namespace is known. -/
def knows (i : NamespaceIndex) (space : Namespace) : Bool := i.known.contains space

/-- Remembers a namespace. -/
def keep (i : NamespaceIndex) (space : Namespace) : NamespaceIndex := ⟨i.known.insert space ()⟩

/-- The known namespaces, ascending. -/
def toList (i : NamespaceIndex) : List Namespace := i.known.keys

/-- Remembers every namespace that the store lists. -/
def refresh : Action Indexed Unit := fun s =>
  match Store.listNamespaces s.store with
  | (.ok spaces, store) => (.ok (), { store, index := spaces.foldl keep s.index })
  | (.error e, store) => (.error (e.withContext "listing namespaces"), { s with store })

/-- Whether a namespace is known, possibly after asking the store. -/
def contains (space : Namespace) : Action Indexed Bool := do
  if (← Action.gets (·.index.knows space)) then return true
  else
    refresh
    Action.gets (·.index.knows space)

/-- Fails unless the namespace is known. -/
def validate (space : Namespace) : Action Indexed Unit := do
  if !(← contains space) then Action.fail (.namespaceNotFound space.name)

/-- Every namespace known after asking the store, ascending. -/
def all : Action Indexed (List Namespace) := do
  refresh
  Action.gets (·.index.toList)

end NamespaceIndex

namespace NamespaceResolver

/-- The failure of asking about namespaces without an index over them. -/
def noIndex : StorageError := .configuration "namespace resolver has no index attached"

/-- Succeeds if a namespace is known; `indexed` says whether there is an index to ask. -/
def validate (indexed : Bool) (space : Namespace) : Action Indexed Bool := do
  if !indexed then Action.fail noIndex
  NamespaceIndex.validate space
  return true

/-- Every tenant with a known namespace, in the order of the namespaces. -/
def allTenants (r : NamespaceResolver) (indexed : Bool) : Action Indexed (List Tenant) := do
  if !r.isMultitenant then Action.fail noTenants
  if !indexed then Action.fail noIndex
  let spaces ← NamespaceIndex.all
  return r.tenants spaces

end NamespaceResolver

end DocumentStore
