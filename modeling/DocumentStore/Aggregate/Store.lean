import DocumentStore.Access.Context
import DocumentStore.Aggregate.Basic
set_option autoImplicit false

/-!
# Stores of aggregate histories

Entries of a history are only added, until it is truncated, and are read backwards: by version, then
by the instant of writing, then snapshots before events.  The number of events since the last
snapshot and the lifecycle flags are kept beside the history, in kinds of their own.
-/

namespace DocumentStore

/-- A handle on the aggregates of a kind. -/
structure AggregateStore (ι : Type) where
  settings : HandleSettings

namespace AggregateStore

open HistoryRecord

variable {ι : Type} [RecordId ι]

/-- The kind of the event counts. -/
def countKind (s : AggregateStore ι) : Kind := s.settings.kind.child "EventCount"

/-- The kind of the lifecycle flags. -/
def flagsKind (s : AggregateStore ι) : Kind := s.settings.kind.child "LifecycleFlags"

/-- The property of an event count. -/
def countProperty : String := "count"

/-- The property of the archived mark. -/
def archivedProperty : String := "archived"

/-- The property of the deleted mark. -/
def deletedProperty : String := "deleted"

/-- What a call concerns, as messages show it. -/
def label (s : AggregateStore ι) (id : ι) : String :=
  "kind=" ++ s.settings.kind.name ++ " aggregate_id=" ++ RecordId.toName id

/-- Puts entities and remembers their namespace. -/
def putAll (s : AggregateStore ι) (id : ι) (keys : KeyFactory) (batch : List Entity) :
    Action Context Unit := do
  Context.onConnection (Connection.put s.settings.policy batch (s.label id))
  Context.keepNamespace keys.space

/-- Adds entries to the history of an aggregate, all written at the caller's instant. -/
def writeRecords (s : AggregateStore ι) (caller : Caller) (id : ι) (records : List HistoryRecord) :
    Action Context Unit := do
  let keys ← Context.currentKeys s.settings caller s.settings.kind
  s.putAll id keys (records.map (toEntity keys (RecordId.toName id) caller.clock))

/-- Adds one entry to the history of an aggregate. -/
def writeRecord (s : AggregateStore ι) (caller : Caller) (id : ι) (r : HistoryRecord) :
    Action Context Unit :=
  s.writeRecords caller id [r]

/-- Adds the snapshot and the events of a history; an empty one writes nothing. -/
def writeHistory (s : AggregateStore ι) (caller : Caller) (id : ι) (h : AggregateHistory) :
    Action Context Unit :=
  if h.records.isEmpty then pure () else s.writeRecords caller id h.records

/-! ## Reading backwards -/

/-- The order of a history read backwards. -/
def backward : List SortKey :=
  [⟨versionProperty, .descending⟩, ⟨createdProperty, .descending⟩, ⟨snapshotProperty, .descending⟩]

/-- The query for the history of an aggregate, newest first. -/
def historyQuery (s : AggregateStore ι) (space : Namespace) (id : ι) : EntityQuery :=
  { EntityQuery.all space s.settings.kind with
    filter := some ⟨[⟨aggregateProperty, .equal, .string (RecordId.toName id)⟩]⟩
    order := backward }

/-- The entities of a history, newest first, at most `batch` of them fetched at once. -/
def historyEntities (s : AggregateStore ι) (caller : Caller) (id : ι) (batch : Nat) :
    EntityStream :=
  if batch = 0 then .failing (.configuration "history batch size must be at least 1")
  else
    match s.settings.resolver.current caller.tenant with
    | .error e => .failing e
    | .ok space => .walk (.start s.settings.policy (s.historyQuery space id) batch)

/-- The history of an aggregate, newest first. -/
def historyBackward (s : AggregateStore ι) (caller : Caller) (id : ι) (batch : Nat) :
    ItemStream HistoryRecord :=
  ⟨s.historyEntities caller id batch, ofEntity⟩

/-- Pulls entries up to and including the first snapshot; `events` are those before it, the last
pulled first.  The fuel counts the pulls. -/
def readBack : Nat → EntityStream → List Event → Action Connection AggregateHistory
  | 0, _, events => pure ⟨none, events⟩
  | fuel + 1, stream, events => fun c =>
    match stream.pull c with
    | (⟨none, _⟩, c) => (.ok ⟨none, events⟩, c)
    | (⟨some (.error e), _⟩, c) => (.error e, c)
    | (⟨some (.ok entity), rest⟩, c) =>
      match ofEntity entity with
      | .error e => (.error e, c)
      | .ok (.snapshot latest) => (.ok ⟨some latest, events⟩, c)
      | .ok (.event e) => readBack fuel rest (e :: events) c

/-- The latest snapshot of an aggregate and the events after it, if there are any. -/
def readHistory (s : AggregateStore ι) (caller : Caller) (id : ι) (batch : Nat) :
    Action Context (Option AggregateHistory) := do
  let stream := s.historyEntities caller id batch
  let history ← Context.onConnection fun c =>
    readBack (stream.bound c.store.size + 1) stream [] c
  return if history.isEmpty then none else some history

/-! ## Truncation -/

/-- Whether an entity is a snapshot of its aggregate. -/
def isSnapshotEntity (e : Entity) : Bool :=
  (e.get? snapshotProperty).bind (·.boolean?) == some true

/-- The entities after the snapshot that `index` others come before. -/
def afterSnapshot (index : Nat) : List Entity → List Entity
  | [] => []
  | e :: rest =>
    if isSnapshotEntity e then
      match index with
      | 0 => rest
      | index + 1 => afterSnapshot index rest
    else afterSnapshot index rest

/-- Every entity of a stream, unless there is a failure.  The fuel counts the pulls. -/
def collect : Nat → EntityStream → Action Connection (List Entity)
  | 0, _ => pure []
  | fuel + 1, stream => fun c =>
    match stream.pull c with
    | (⟨none, _⟩, c) => (.ok [], c)
    | (⟨some (.error e), _⟩, c) => (.error e, c)
    | (⟨some (.ok entity), rest⟩, c) =>
      match collect fuel rest c with
      | (.ok more, c) => (.ok (entity :: more), c)
      | (.error e, c) => (.error e, c)

/-- Deletes what is older than the snapshot that `index` later ones come before, and answers with
the number of entries deleted. -/
def truncateOlderThan (s : AggregateStore ι) (caller : Caller) (id : ι) (index : Nat) :
    Action Context Nat := do
  let stream := s.historyEntities caller id s.settings.pageSize
  let entities ← Context.onConnection fun c => collect (stream.bound c.store.size + 1) stream c
  let doomed := (afterSnapshot index entities).map (·.key)
  if !doomed.isEmpty then
    Context.onConnection (Connection.delete s.settings.policy doomed (s.label id))
  return doomed.length

/-! ## Values beside the history -/

/-- The value of an aggregate in a kind beside the histories. -/
def readBeside (s : AggregateStore ι) (caller : Caller) (kind : Kind) (id : ι) :
    Action Context (Option Entity) := do
  let keys ← Context.currentKeys s.settings caller kind
  let found ← Context.onConnection
    (Connection.lookup s.settings.policy [keys.key id] (s.label id))
  return found.head?.join

/-- Writes the value of an aggregate in a kind beside the histories. -/
def writeBeside (s : AggregateStore ι) (caller : Caller) (kind : Kind) (id : ι)
    (properties : List (String × NativeValue)) : Action Context Unit := do
  let keys ← Context.currentKeys s.settings caller kind
  s.putAll id keys [⟨keys.key id, .ofList properties⟩]

/-- One more than the largest event count. -/
def countBound : Nat := Nat.pow 2 31

/-- The event count that an entity holds; nothing of that kind counts as zero. -/
def countOf (e : Entity) : Outcome Int :=
  let count := ((e.get? countProperty).bind (·.integer?)).getD 0
  if -Int.ofNat countBound ≤ count ∧ count < Int.ofNat countBound then .ok count
  else
    .error (.backend "decode"
      ("event count " ++ toString count ++ " of " ++ e.key.toText ++ " is out of range"))

/-- The number of events since the last snapshot, zero if never written. -/
def readCount (s : AggregateStore ι) (caller : Caller) (id : ι) : Action Context Int := do
  match ← s.readBeside caller s.countKind id with
  | none => return 0
  | some e => Action.ofOutcome (countOf e)

/-- Writes the number of events since the last snapshot. -/
def writeCount (s : AggregateStore ι) (caller : Caller) (id : ι) (count : Int) :
    Action Context Unit :=
  s.writeBeside caller s.countKind id [(countProperty, .integer count)]

/-- The marks that an entity holds. -/
def flagsOf (e : Entity) : LifecycleFlags :=
  let flag (property : String) := ((e.get? property).bind (·.boolean?)).getD false
  ⟨flag archivedProperty, flag deletedProperty⟩

/-- The marks of an aggregate, if one is set. -/
def readFlags (s : AggregateStore ι) (caller : Caller) (id : ι) :
    Action Context (Option LifecycleFlags) := do
  let found ← s.readBeside caller s.flagsKind id
  return (found.map flagsOf).filter (·.isSet)

/-- Writes the marks of an aggregate. -/
def writeFlags (s : AggregateStore ι) (caller : Caller) (id : ι) (flags : LifecycleFlags) :
    Action Context Unit :=
  s.writeBeside caller s.flagsKind id
    [(archivedProperty, .boolean flags.archived), (deletedProperty, .boolean flags.deleted)]

/-! ## Listing -/

/-- The aggregate that an entity belongs to. -/
def ownerOf (e : Entity) : Outcome ι :=
  match (e.get? aggregateProperty).bind (·.string?) with
  | some name => RecordId.ofName name
  | none => .error (.invalidIdentifier "")

/-- The aggregates with an event or a snapshot, each once. -/
def index (s : AggregateStore ι) (caller : Caller) : ItemStream ι :=
  match s.settings.resolver.current caller.tenant with
  | .error e => .failing e
  | .ok space =>
    let query := { EntityQuery.all space s.settings.kind with
      order := [⟨aggregateProperty, .ascending⟩] }
    ⟨.sifted (.byProperty aggregateProperty) []
      [.start s.settings.policy query s.settings.pageSize], ownerOf⟩

end AggregateStore

end DocumentStore
