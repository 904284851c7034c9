import DocumentStore.Proofs.Aggregate.Histories
import DocumentStore.Proofs.Operation.Runs
set_option autoImplicit false

/-!
# What aggregate stores leave

In a deployment whose handles only read, write and truncate histories, count events and set flags, in
transactions or not and with failures anywhere, every document that names an aggregate is an entry of
its history as it was written.
-/

namespace DocumentStore

open HistoryRecord

variable {ι : Type} [RecordId ι] {keys : KeyFactory}

/-- Whether an entity of the namespace and kind that names an aggregate is an entry of its history. -/
def Entity.HoldsEntry (keys : KeyFactory) (e : Entity) : Prop :=
  e.key.space = keys.space → e.key.kind = keys.kind → ∀ name,
    e.get? aggregateProperty = some (.string name) → ∃ w : DatedRecord, e = w.entity keys name

/-- Whether the documents of a namespace and kind that name an aggregate are entries of histories. -/
def HistoriesOnly (keys : KeyFactory) (documents : SortedMap Key Properties) : Prop :=
  ∀ e : Entity, documents.get? e.key = some e.properties → e.HoldsEntry keys

/-- Whether a write leaves nothing but entries under the names of aggregates. -/
def Write.OfHistory (keys : KeyFactory) (w : Write) : Prop :=
  ∀ properties, w.2 = some properties → Entity.HoldsEntry keys ⟨w.1, properties⟩

/-- Whether an operation is one of an aggregate store. -/
def Operation.OfHistories : Operation ι → Prop
  | .writeEntry _ _ | .writeHistory _ _ | .historyBackward _ _ _ | .readHistory _ _ => True
  | .truncate _ _ | .readCount _ | .writeCount _ _ | .readFlags _ | .writeFlags _ _ => True
  | .aggregates _ => True
  | _ => False

/-- Whether a step runs an operation of an aggregate store, if it runs one. -/
def Deployment.Step.OfHistories : Deployment.Step ι → Prop
  | .operate _ _ op => op.OfHistories
  | _ => True

theorem DatedRecord.holdsEntry_entity (keys' : KeyFactory) (aggregate : String) (w : DatedRecord) :
    (w.entity keys' aggregate).HoldsEntry keys := by
  intro hspace hkind name hname
  obtain rfl : keys' = keys := KeyFactory.eq_of_eq hspace hkind
  rw [entity, (get?_toEntity keys' aggregate w.created w.record).1] at hname
  obtain rfl := NativeValue.string.inj (Option.some.inj hname)
  exact ⟨w, rfl⟩

theorem Operation.historyWrites_ofHistory {settings : HandleSettings} {caller : Caller} {id : ι}
    {records : List HistoryRecord} {ws : List Write}
    (h : historyWrites settings caller id records = .ok ws) : ∀ w ∈ ws, Write.OfHistory keys w := by
  obtain ⟨space, -, rfl⟩ := historyWrites_eq_ok h
  refine Write.puts_ofEntities fun e he => ?_
  obtain ⟨r, -, rfl⟩ := List.mem_map.mp he
  exact DatedRecord.holdsEntry_entity _ (RecordId.toName id) ⟨r, caller.clock⟩

/-- What is written beside a history does not name an aggregate. -/
theorem Operation.besideWrites_ofHistory {settings : HandleSettings} {caller : Caller} {kind : Kind}
    {id : ι} {properties : List (String × NativeValue)} {ws : List Write}
    (hnone : (SortedMap.ofList properties).get? aggregateProperty = none)
    (h : besideWrites settings caller kind id properties = .ok ws) :
    ∀ w ∈ ws, Write.OfHistory keys w := by
  obtain ⟨space, -, rfl⟩ := besideWrites_eq_ok h
  refine Write.puts_ofEntities fun e he _ _ name hname => ?_
  obtain rfl := List.mem_singleton.mp he
  rw [Entity.get?, hnone] at hname
  cases hname

/-- An aggregate store plans to write entries and values beside them, and to delete. -/
theorem Operation.writes_ofHistories {op : Operation ι} (hop : op.OfHistories)
    {settings : HandleSettings} {caller : Caller} {c : Connection} {ws : List Write}
    (h : op.writes settings caller c = .ok ws) : ∀ w ∈ ws, Write.OfHistory keys w := by
  have hnone : ∀ w ∈ ([] : List Write), Write.OfHistory keys w := fun w hw => by cases hw
  cases op with
  | historyBackward | readHistory | readCount | readFlags | aggregates =>
    cases h
    exact hnone
  | writeEntry id r => exact historyWrites_ofHistory h
  | writeHistory id history =>
    rw [writes] at h
    split at h
    · cases h
      exact hnone
    · exact historyWrites_ofHistory h
  | truncate id index =>
    obtain ⟨removed, -, h⟩ := Outcome.bind_eq_ok h
    cases h
    exact Write.puts_ofDeleted
  | writeCount id count =>
    refine besideWrites_ofHistory ?_ h
    simp [SortedMap.ofList, SortedMap.get?_insert, aggregateProperty, AggregateStore.countProperty]
  | writeFlags id flags =>
    refine besideWrites_ofHistory ?_ h
    simp [SortedMap.ofList, SortedMap.get?_insert, aggregateProperty, AggregateStore.archivedProperty,
      AggregateStore.deletedProperty]
  | read | readAll | write | writeAll | delete | indexMatching | scan => exact hop.elim

/-- However handles on aggregates are used from the start, what names an aggregate is an entry of its
history. -/
theorem historiesOnly_run {d : Deployment} (hempty : d.store.documents = ∅) (hslots : d.slots = [])
    {steps : List (Deployment.Step ι)} (hsteps : ∀ step ∈ steps, step.OfHistories) :
    HistoriesOnly keys (Deployment.run steps d).store.documents := by
  refine Deployment.forall_document_run hempty hslots fun step hstep => ?_
  have hhistories := hsteps step hstep
  cases step with
  | operate h caller op => exact fun c ws hws => Operation.writes_ofHistories hhistories hws
  | openHandle | begin | commit | rollback | drop | failNext | close => trivial

end DocumentStore
