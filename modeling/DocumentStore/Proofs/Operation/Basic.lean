import DocumentStore.Aggregate.Store
import DocumentStore.Proofs.Access.Contexts
import DocumentStore.Record.Store
set_option autoImplicit false

/-!
# The operations of handles

Everything that a record store or an aggregate store can be asked, as data, with its answer.  An
operation that gives a stream is one together with the reading of its items, at most a number of them
or all.  `writes` says what an operation is to write, and `kindOf` whether its calls read or write.
-/

namespace DocumentStore

/-- An operation of a record store or an aggregate store. -/
inductive Operation (ι : Type) where
  | read (id : ι)
  | readAll (ids : List ι)
  | write (r : Record ι)
  | writeAll (records : List (Record ι))
  | delete (id : ι)
  | indexMatching (p : Predicate) (count : Option Nat)
  | scan (q : RecordQuery ι) (count : Option Nat)
  | writeEntry (id : ι) (r : HistoryRecord)
  | writeHistory (id : ι) (h : AggregateHistory)
  | historyBackward (id : ι) (batch : Nat) (count : Option Nat)
  | readHistory (id : ι) (batch : Nat)
  | truncate (id : ι) (index : Nat)
  | readCount (id : ι)
  | writeCount (id : ι) (count : Int)
  | readFlags (id : ι)
  | writeFlags (id : ι) (flags : LifecycleFlags)
  | aggregates (count : Option Nat)

/-- The answer to an operation. -/
inductive Answer (ι : Type) where
  | done
  | record (found : Option (Record ι))
  | recordsOf (found : List (Option (Record ι)))
  | deleted (answer : Bool)
  | ids (drained : Drained ι)
  | records (drained : Drained (Record ι))
  | entries (drained : Drained HistoryRecord)
  | history (found : Option AggregateHistory)
  | removed (count : Nat)
  | count (count : Int)
  | flags (found : Option LifecycleFlags)

/-- The failures among the items of a stream. -/
def Drained.failures {α : Type} (d : Drained α) : List StorageError :=
  d.items.filterMap fun item =>
    match item with
    | .ok _ => none
    | .error e => some e

namespace Answer

variable {ι : Type}

/-- The failures among the items of an answer. -/
def failures : Answer ι → List StorageError
  | .ids drained => drained.failures
  | .records drained => drained.failures
  | .entries drained => drained.failures
  | _ => []

/-- The failures that a caller is told of: that of the operation, or those among its items. -/
def reported : Outcome (Answer ι) → List StorageError
  | .error e => [e]
  | .ok answer => answer.failures

end Answer

/-- Reads items of a stream: at most a number of them, or all. -/
def Context.pull {α : Type} (count : Option Nat) (stream : ItemStream α) :
    Action Context (Drained α) := fun s =>
  match count with
  | some count =>
    match stream.take count s.connection with
    | (d, _, c) => (.ok d, { s with connection := c })
  | none =>
    match stream.drain s.connection with
    | (d, _, c) => (.ok d, { s with connection := c })

namespace Operation

variable {ι : Type} [RecordId ι]

/-- The operation of a handle with these settings, on behalf of a caller. -/
def perform (settings : HandleSettings) (caller : Caller) :
    Operation ι → Action Context (Answer ι)
  | .read id => do return .record (← RecordStore.read ⟨settings⟩ caller id)
  | .readAll ids => do return .recordsOf (← RecordStore.readAllByIds ⟨settings⟩ caller ids)
  | .write r => do
    RecordStore.write ⟨settings⟩ caller r
    return .done
  | .writeAll records => do
    RecordStore.writeAll ⟨settings⟩ caller records
    return .done
  | .delete id => do return .deleted (← RecordStore.delete ⟨settings⟩ caller id)
  | .indexMatching p count => do
    return .ids (← Context.pull count (RecordStore.indexMatching ⟨settings⟩ caller p))
  | .scan q count => do
    let stream ← RecordStore.readAllRecords ⟨settings⟩ caller q
    return .records (← Context.pull count stream)
  | .writeEntry id r => do
    AggregateStore.writeRecord ⟨settings⟩ caller id r
    return .done
  | .writeHistory id h => do
    AggregateStore.writeHistory ⟨settings⟩ caller id h
    return .done
  | .historyBackward id batch count => do
    return .entries (← Context.pull count (AggregateStore.historyBackward ⟨settings⟩ caller id batch))
  | .readHistory id batch => do
    return .history (← AggregateStore.readHistory ⟨settings⟩ caller id batch)
  | .truncate id index => do
    return .removed (← AggregateStore.truncateOlderThan ⟨settings⟩ caller id index)
  | .readCount id => do return .count (← AggregateStore.readCount ⟨settings⟩ caller id)
  | .writeCount id count => do
    AggregateStore.writeCount ⟨settings⟩ caller id count
    return .done
  | .readFlags id => do return .flags (← AggregateStore.readFlags ⟨settings⟩ caller id)
  | .writeFlags id flags => do
    AggregateStore.writeFlags ⟨settings⟩ caller id flags
    return .done
  | .aggregates count => do
    return .ids (← Context.pull count (AggregateStore.index ⟨settings⟩ caller))

/-! ## What an operation is to write -/

/-- The keys that a truncation is to delete, unless the history cannot be read. -/
def doomed (settings : HandleSettings) (caller : Caller) (id : ι) (index : Nat) (c : Connection) :
    Outcome (List Key) :=
  let stream := AggregateStore.historyEntities ⟨settings⟩ caller id settings.pageSize
  (AggregateStore.collect (stream.bound c.store.size + 1) stream c).1.map fun entities =>
    (AggregateStore.afterSnapshot index entities).map (·.key)

/-- The writes of adding entries to the history of an aggregate. -/
def historyWrites (settings : HandleSettings) (caller : Caller) (id : ι)
    (records : List HistoryRecord) : Outcome (List Write) := do
  let keys ← settings.keysOf caller settings.kind
  return Write.ofEntities (records.map (HistoryRecord.toEntity keys (RecordId.toName id) caller.clock))

/-- The write of a value beside the history of an aggregate. -/
def besideWrites (settings : HandleSettings) (caller : Caller) (kind : Kind) (id : ι)
    (properties : List (String × NativeValue)) : Outcome (List Write) := do
  let keys ← settings.keysOf caller kind
  return Write.ofEntities [⟨keys.key id, .ofList properties⟩]

/-- The entries that are planned are put in the namespace of the caller. -/
theorem historyWrites_eq_ok {settings : HandleSettings} {caller : Caller} {id : ι}
    {records : List HistoryRecord} {ws : List Write}
    (h : historyWrites settings caller id records = .ok ws) :
    ∃ space, settings.resolver.current caller.tenant = .ok space ∧ ws = Write.ofEntities
      (records.map (HistoryRecord.toEntity ⟨space, settings.kind⟩ (RecordId.toName id) caller.clock)) := by
  rw [historyWrites, HandleSettings.keysOf] at h
  cases hspace : settings.resolver.current caller.tenant <;> rw [hspace] at h <;> cases h
  exact ⟨_, rfl, rfl⟩

/-- The value that is planned is put in the namespace of the caller. -/
theorem besideWrites_eq_ok {settings : HandleSettings} {caller : Caller} {kind : Kind} {id : ι}
    {properties : List (String × NativeValue)} {ws : List Write}
    (h : besideWrites settings caller kind id properties = .ok ws) :
    ∃ space, settings.resolver.current caller.tenant = .ok space ∧
      ws = Write.ofEntities [⟨(KeyFactory.mk space kind).key id, .ofList properties⟩] := by
  rw [besideWrites, HandleSettings.keysOf] at h
  cases hspace : settings.resolver.current caller.tenant <;> rw [hspace] at h <;> cases h
  exact ⟨_, rfl, rfl⟩

/-- The writes of an operation, in order, unless it fails before the first. -/
def writes (settings : HandleSettings) (caller : Caller) (c : Connection) :
    Operation ι → Outcome (List Write)
  | .write r => do
    let keys ← settings.keysOf caller settings.kind
    let entity ← r.toEntity settings.mapping keys
    return Write.ofEntities [entity]
  | .writeAll records =>
    if records.isEmpty then .ok []
    else do
      let keys ← settings.keysOf caller settings.kind
      let entities ← RecordStore.entitiesOf settings.mapping keys records
      return Write.ofEntities entities
  | .delete id => do
    let keys ← settings.keysOf caller settings.kind
    return Write.ofDeleted [keys.key id]
  | .writeEntry id r => historyWrites settings caller id [r]
  | .writeHistory id h =>
    if h.records.isEmpty then .ok [] else historyWrites settings caller id h.records
  | .truncate id index => do
    let keys ← doomed settings caller id index c
    return Write.ofDeleted keys
  | .writeCount id count =>
    besideWrites settings caller (AggregateStore.countKind (ι := ι) ⟨settings⟩) id
      [(AggregateStore.countProperty, .integer count)]
  | .writeFlags id flags =>
    besideWrites settings caller (AggregateStore.flagsKind (ι := ι) ⟨settings⟩) id
      [(AggregateStore.archivedProperty, .boolean flags.archived),
        (AggregateStore.deletedProperty, .boolean flags.deleted)]
  | _ => .ok []

end Operation

end DocumentStore
