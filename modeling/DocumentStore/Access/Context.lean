import DocumentStore.Access.Stream
import DocumentStore.Column.Mapping
import DocumentStore.Record.Id
import DocumentStore.Tenancy.Index
set_option autoImplicit false

/-!
# What the operations of a handle share

Beside its connection, an operation of a handle uses the index of namespaces and the cache of key
factories of the whole deployment.  It runs on behalf of a caller, who has a tenant or not, and
whose clock dates what is written.
-/

namespace DocumentStore

/-- On whose behalf an operation runs, and when. -/
structure Caller where
  tenant : Option Tenant
  clock : Timestamp
  deriving DecidableEq, Repr, Inhabited

/-- How a handle was set up. -/
structure HandleSettings where
  kind : Kind
  policy : Policy
  /-- The most entities fetched at once by scans, at least one. -/
  pageSize : Nat
  resolver : NamespaceResolver
  mapping : ColumnMapping

/-- The state that the operations of a handle work on. -/
structure Context where
  connection : Connection
  index : NamespaceIndex
  keys : KeyFactoryCache

namespace Context

/-- An operation of the connection. -/
def onConnection {α : Type} (x : Action Connection α) : Action Context α :=
  Action.onPart (·.connection) (fun s c => { s with connection := c }) x

/-- Remembers that a namespace was written to. -/
def keepNamespace (space : Namespace) : Action Context Unit :=
  Action.modify fun s => { s with index := s.index.keep space }

/-- The key factory of a namespace and kind, from the cache. -/
def keyFactory (space : Namespace) (kind : Kind) : Action Context KeyFactory := fun s =>
  let factory : KeyFactory := ⟨space, kind⟩
  (.ok factory, { s with keys := s.keys.keep factory })

/-- The key factory of a kind in the caller's namespace. -/
def currentKeys (settings : HandleSettings) (caller : Caller) (kind : Kind) :
    Action Context KeyFactory := do
  let space ← Action.ofOutcome (settings.resolver.current caller.tenant)
  keyFactory space kind

end Context

end DocumentStore
