import DocumentStore.Access.Context
import DocumentStore.Predicate.Filters
import DocumentStore.Record.Basic
set_option autoImplicit false

/-!
# Stores of records

Records of one kind are read, written, deleted and found in the namespace of the caller's tenant.
Scans compile their predicate to filters: with at most one filter they are a single walk, with
several they walk the results of each and leave repetitions out.
-/

namespace DocumentStore

/-- A handle on the records of a kind. -/
structure RecordStore (ι : Type) where
  settings : HandleSettings

namespace RecordStore

variable {ι : Type} [RecordId ι]

/-- What a call concerns, as messages show it. -/
def label (s : RecordStore ι) (what : String) : String :=
  "kind=" ++ s.settings.kind.name ++ " " ++ what

/-- The key factory of the store's kind in the caller's namespace. -/
def keys (s : RecordStore ι) (caller : Caller) : Action Context KeyFactory :=
  Context.currentKeys s.settings caller s.settings.kind

/-- The record of an answer to a look-up, if there is one. -/
def recordOf (found : Option Entity) : Outcome (Option (Record ι)) :=
  match found with
  | none => .ok none
  | some e => do return some (← Record.ofEntity e)

/-- The records of answers to a look-up. -/
def recordsOf : List (Option Entity) → Outcome (List (Option (Record ι)))
  | [] => .ok []
  | found :: rest => do
    let r ← recordOf found
    let rs ← recordsOf rest
    return r :: rs

/-- The record of an identifier, if there is one. -/
def read (s : RecordStore ι) (caller : Caller) (id : ι) : Action Context (Option (Record ι)) := do
  let keys ← s.keys caller
  let key := keys.key id
  let found ← Context.onConnection
    (Connection.lookup s.settings.policy [key] (s.label ("id=" ++ key.name)))
  Action.ofOutcome (recordOf found.head?.join)

/-- The records of identifiers, one answer for each in order. -/
def readAllByIds (s : RecordStore ι) (caller : Caller) (ids : List ι) :
    Action Context (List (Option (Record ι))) := do
  let keys ← s.keys caller
  let found ← Context.onConnection
    (Connection.lookup s.settings.policy (ids.map keys.key)
      (s.label ("ids=" ++ toString ids.length)))
  Action.ofOutcome (recordsOf found)

/-- Puts entities and remembers their namespace. -/
def putAll (s : RecordStore ι) (keys : KeyFactory) (batch : List Entity) (what : String) :
    Action Context Unit := do
  Context.onConnection (Connection.put s.settings.policy batch (s.label what))
  Context.keepNamespace keys.space

/-- Inserts or overwrites a record. -/
def write (s : RecordStore ι) (caller : Caller) (r : Record ι) : Action Context Unit := do
  let keys ← s.keys caller
  let entity ← Action.ofOutcome (r.toEntity s.settings.mapping keys)
  s.putAll keys [entity] ("id=" ++ entity.key.name)

/-- The entities of records, in order. -/
def entitiesOf (mapping : ColumnMapping) (keys : KeyFactory) :
    List (Record ι) → Outcome (List Entity)
  | [] => .ok []
  | r :: rest => do
    let e ← r.toEntity mapping keys
    let es ← entitiesOf mapping keys rest
    return e :: es

/-- Inserts or overwrites records, in order. -/
def writeAll (s : RecordStore ι) (caller : Caller) (records : List (Record ι)) :
    Action Context Unit := do
  if records.isEmpty then return ()
  let keys ← s.keys caller
  let entities ← Action.ofOutcome (entitiesOf s.settings.mapping keys records)
  s.putAll keys entities ("records=" ++ toString entities.length)

/-- Deletes a record.  The answer is always `true`, whether there was one or not. -/
def delete (s : RecordStore ι) (caller : Caller) (id : ι) : Action Context Bool := do
  let keys ← s.keys caller
  let key := keys.key id
  Context.onConnection
    (Connection.delete s.settings.policy [key] (s.label ("id=" ++ key.name)))
  return true

/-! ## Scans -/

/-- The query of a scan for one filter, or for none. -/
def scanQuery (s : RecordStore ι) (space : Namespace) (order : List SortKey) (limit : Option Nat)
    (keysOnly : Bool) (filter : Option ConjunctiveFilter) : EntityQuery :=
  { space, kind := s.settings.kind, filter, order, limit, start := none, keysOnly }

/-- The entities that one of the filters holds of, or all if there is none. -/
def scan (s : RecordStore ι) (space : Namespace) (filters : List ConjunctiveFilter)
    (order : List SortKey) (limit : Option Nat) (keysOnly : Bool) : EntityStream :=
  let walk (filter : Option ConjunctiveFilter) : Walk :=
    .start s.settings.policy (s.scanQuery space order limit keysOnly filter) s.settings.pageSize
  match filters with
  | [] => .walk (walk none)
  | [f] => .walk (walk (some f))
  | fs =>
    let walks := fs.map fun f => walk (some f)
    if order.isEmpty && limit.isNone then .sifted .byKey [] walks else .merged walks order limit

/-- The namespace and the filters of a scan. -/
def scanTarget (s : RecordStore ι) (caller : Caller) (p : Predicate) :
    Outcome (Namespace × List ConjunctiveFilter) := do
  let space ← s.settings.resolver.current caller.tenant
  let filters ← p.compile s.settings.mapping
  return (space, filters)

/-- The identifiers of the records that satisfy a predicate. -/
def indexMatching (s : RecordStore ι) (caller : Caller) (p : Predicate) : ItemStream ι :=
  match s.scanTarget caller p with
  | .error e => .failing e
  | .ok (space, filters) =>
    ⟨s.scan space filters [] none true, fun e => RecordId.ofName e.key.name⟩

/-- The identifiers of all records. -/
def index (s : RecordStore ι) (caller : Caller) : ItemStream ι := s.indexMatching caller .empty

/-- The records that a query asks for. -/
def readAllRecords (s : RecordStore ι) (caller : Caller) (q : RecordQuery ι) :
    Action Context (ItemStream (Record ι)) :=
  match s.scanTarget caller q.predicate with
  | .error e => pure (.failing e)
  | .ok (space, filters) =>
    match q.ids with
    | none => pure ⟨s.scan space filters q.order q.limit false, Record.ofEntity⟩
    | some ids => do
      let keys ← Context.keyFactory space s.settings.kind
      return ⟨.found s.settings.policy (s.label ("ids=" ++ toString ids.length))
        (ids.map keys.key) filters q.order q.limit, Record.ofEntity⟩

end RecordStore

end DocumentStore
