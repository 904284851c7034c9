import DocumentStore.Record.Id
set_option autoImplicit false

/-!
# Events, snapshots and histories

The history of an aggregate is made of events, each with an identifier of its own, and snapshots.
Both have a version, the instant they stand for and a payload.  An event is stored under its
identifier, a snapshot under its aggregate and version.
-/

namespace DocumentStore

/-- Something that happened to an aggregate. -/
structure Event where
  id : Uuid
  version : Int
  timestamp : Timestamp
  payload : List UInt8
  deriving DecidableEq, Repr, Inhabited

/-- The state of an aggregate at a version. -/
structure Snapshot where
  version : Int
  timestamp : Timestamp
  payload : List UInt8
  deriving DecidableEq, Repr, Inhabited

/-- An entry of a history. -/
inductive HistoryRecord where
  | event (e : Event)
  | snapshot (s : Snapshot)
  deriving DecidableEq, Repr, Inhabited

namespace HistoryRecord

/-- The version of the aggregate that the entry belongs to. -/
def version : HistoryRecord → Int
  | .event e => e.version
  | .snapshot s => s.version

/-- When the event happened or the snapshot was taken. -/
def timestamp : HistoryRecord → Timestamp
  | .event e => e.timestamp
  | .snapshot s => s.timestamp

/-- The payload of the entry. -/
def payload : HistoryRecord → List UInt8
  | .event e => e.payload
  | .snapshot s => s.payload

/-- Whether the entry is a snapshot. -/
def isSnapshot : HistoryRecord → Bool
  | .event _ => false
  | .snapshot _ => true

/-- The name of the entry's key within the kind of the aggregate. -/
def keyName (r : HistoryRecord) (aggregate : String) : String :=
  match r with
  | .event e => e.id.toText
  | .snapshot s => "SNAPSHOT-" ++ aggregate ++ "-" ++ toString s.version

/-! ## Stored form -/

/-- The property with the name of the aggregate. -/
def aggregateProperty : String := "aggregate_id"

/-- The property with the instant of writing. -/
def createdProperty : String := "created"

/-- The property with the version. -/
def versionProperty : String := "version"

/-- The property that tells snapshots from events. -/
def snapshotProperty : String := "snapshot"

/-- The property with the instant of the entry. -/
def timestampProperty : String := "timestamp"

/-- The property with the payload. -/
def historyPayloadProperty : String := "payload"

/-- The property with the identifier of an event. -/
def eventIdProperty : String := "event_id"

/-- The entity of an entry, written at `created`. -/
def toEntity (keys : KeyFactory) (aggregate : String) (created : Timestamp) (r : HistoryRecord) :
    Entity :=
  let shared : List (String × NativeValue) :=
    [(aggregateProperty, .string aggregate), (createdProperty, .timestamp created),
     (versionProperty, .integer r.version), (snapshotProperty, .boolean r.isSnapshot),
     (timestampProperty, .timestamp r.timestamp), (historyPayloadProperty, .blob r.payload)]
  let own : List (String × NativeValue) := match r with
    | .event e => [(eventIdProperty, .string e.id.toText)]
    | .snapshot _ => []
  ⟨keys.named (r.keyName aggregate), .ofList (shared ++ own)⟩

/-- A property of an entity, read as one type. -/
def field {α : Type} (e : Entity) (property : String) (read : NativeValue → Option α) : Outcome α :=
  match e.get? property with
  | none => .error (.backend "decode" (e.key.toText ++ " has no " ++ Text.quoted property ++ " property"))
  | some value =>
    match read value with
    | some a => .ok a
    | none =>
      .error (.backend "decode"
        (e.key.toText ++ " has a malformed " ++ Text.quoted property ++ " property"))

/-- The entry of an entity. -/
def ofEntity (e : Entity) : Outcome HistoryRecord := do
  let version ← field e versionProperty (·.integer?)
  let timestamp ← field e timestampProperty (·.timestamp?)
  let payload ← field e historyPayloadProperty (·.blob?)
  if (← field e snapshotProperty (·.boolean?)) then
    return .snapshot ⟨version, timestamp, payload⟩
  else
    let id ← field e eventIdProperty fun v => v.string?.bind Uuid.ofText?
    return .event ⟨id, version, timestamp, payload⟩

end HistoryRecord

/-- The latest snapshot of an aggregate and the events after it, oldest first. -/
structure AggregateHistory where
  snapshot : Option Snapshot
  events : List Event
  deriving DecidableEq, Repr, Inhabited

namespace AggregateHistory

/-- Whether there is neither a snapshot nor an event. -/
def isEmpty (h : AggregateHistory) : Bool := h.snapshot.isNone && h.events.isEmpty

/-- The version after the last event, or that of the snapshot. -/
def version? (h : AggregateHistory) : Option Int :=
  match h.events.getLast? with
  | some e => some e.version
  | none => h.snapshot.map (·.version)

/-- The entries of a history, the snapshot first. -/
def records (h : AggregateHistory) : List HistoryRecord :=
  (h.snapshot.map HistoryRecord.snapshot).toList ++ h.events.map HistoryRecord.event

end AggregateHistory

/-- Marks on an aggregate. -/
structure LifecycleFlags where
  archived : Bool
  deleted : Bool
  deriving DecidableEq, Repr, Inhabited

/-- Whether a mark is set. -/
def LifecycleFlags.isSet (f : LifecycleFlags) : Bool := f.archived || f.deleted

end DocumentStore
