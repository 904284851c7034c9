import DocumentStore.Aggregate.Store
import DocumentStore.Configuration
import DocumentStore.Record.Store
set_option autoImplicit false

/-!
# Deployments

A deployment hands out any number of handles on one store.  They share the counters, the index of
namespaces and the cache of key factories, and are closed together; each has a transaction slot of
its own.
-/

namespace DocumentStore

/-- A store with the handles on it. -/
structure Deployment where
  settings : StorageSettings
  resolver : NamespaceResolver
  mapping : ColumnMapping
  store : Store
  metrics : Metrics
  closed : Bool
  index : NamespaceIndex
  keys : KeyFactoryCache
  /-- The transaction slots of the handles, in the order in which they were handed out. -/
  slots : List Slot

/-- A handle: what it was set up for, and the place of its slot. -/
structure Handle where
  settings : HandleSettings
  slot : Nat

namespace Deployment

/-- A deployment on a store, unless the settings ask for an impossible resolver. -/
def start (store : Store) (settings : StorageSettings) (mapping : ColumnMapping) :
    Outcome Deployment := do
  let resolver ← settings.resolver
  return {
    settings, resolver, mapping, store
    metrics := .zero
    closed := false
    index := .empty
    keys := .empty
    slots := [] }

/-- How the handles reach the store; a limit of zero counts as one. -/
def policy (d : Deployment) : Policy :=
  { limits := ⟨max d.settings.limits.read 1, max d.settings.limits.write 1⟩
    transactional := d.settings.transactional }

/-- The settings of a handle on a kind. -/
def handleSettings (d : Deployment) (kind : Kind) : HandleSettings :=
  { kind
    policy := d.policy
    pageSize := max d.settings.pageSize 1
    resolver := d.resolver
    mapping := d.mapping }

/-- Hands out a handle with an idle slot. -/
def openHandle (kind : Kind) : Action Deployment Handle := fun d =>
  (.ok ⟨d.handleSettings kind, d.slots.length⟩, { d with slots := d.slots ++ [.idle] })

/-! ## Operations of a handle -/

/-- The slot of a handle. -/
def slotOf (d : Deployment) (h : Handle) : Slot := d.slots.getD h.slot .idle

/-- The connection of a handle. -/
def connection (d : Deployment) (h : Handle) : Connection :=
  { store := d.store, metrics := d.metrics, closed := d.closed, slot := d.slotOf h }

/-- The deployment after its handle's connection has changed. -/
def withConnection (d : Deployment) (h : Handle) (c : Connection) : Deployment :=
  { d with
    store := c.store
    metrics := c.metrics
    closed := c.closed
    slots := d.slots.set h.slot c.slot }

/-- What an operation of a handle works on. -/
def context (d : Deployment) (h : Handle) : Context :=
  { connection := d.connection h, index := d.index, keys := d.keys }

/-- The deployment after an operation of a handle. -/
def withContext (d : Deployment) (h : Handle) (c : Context) : Deployment :=
  { d.withConnection h c.connection with index := c.index, keys := c.keys }

/-- An operation of a handle. -/
def onHandle {α : Type} (h : Handle) (x : Action Context α) : Action Deployment α :=
  Action.onPart (·.context h) (·.withContext h) x

/-- An operation of a handle's connection. -/
def onConnection {α : Type} (h : Handle) (x : Action Connection α) : Action Deployment α :=
  Action.onPart (·.connection h) (·.withConnection h) x

/-- Pulls items of a stream of a handle: at most `count` of them, or all. -/
def pull {α : Type} (h : Handle) (count : Option Nat) (stream : ItemStream α) (d : Deployment) :
    Drained α × ItemStream α × Deployment :=
  let c := d.connection h
  let (drained, rest, c) := match count with
    | some count => stream.take count c
    | none => stream.drain c
  (drained, rest, d.withConnection h c)

/-- Gives up the open transaction of a handle, if it has one. -/
def dropScope (h : Handle) (d : Deployment) : Deployment :=
  d.withConnection h (d.connection h).dropScope

/-! ## Operations of the deployment -/

/-- An operation of the index of namespaces. -/
def onIndex {α : Type} (x : Action Indexed α) : Action Deployment α :=
  Action.onPart (fun d => ⟨d.store, d.index⟩)
    (fun d s => { d with store := s.store, index := s.index }) x

/-- Every tenant with data in the store. -/
def allTenants : Action Deployment (List Tenant) := fun d =>
  onIndex (d.resolver.allTenants true) d

/-- Closes every handle. -/
def close (d : Deployment) : Deployment := { d with closed := true }

end Deployment

end DocumentStore
