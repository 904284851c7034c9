import DocumentStore.Proofs.Operation.Runs
import DocumentStore.Proofs.Record.Stored
set_option autoImplicit false

/-!
# What record stores leave

A deployment whose handles only read, write and delete records, in transactions or not and with
failures anywhere, has nothing but records in each namespace and kind.
-/

namespace DocumentStore

variable {ι : Type} [RecordId ι] {keys : KeyFactory}

/-- Whether an operation is one of a record store. -/
def Operation.OfRecords : Operation ι → Prop
  | .read _ | .readAll _ | .write _ | .writeAll _ | .delete _ => True
  | .indexMatching _ _ | .scan _ _ => True
  | _ => False

/-- Whether a step runs an operation of a record store, if it runs one. -/
def Deployment.Step.OfRecords : Deployment.Step ι → Prop
  | .operate _ _ op => op.OfRecords
  | _ => True

theorem Record.ofRecord_toEntity {mapping : ColumnMapping} {keys' : KeyFactory} {r : Record ι}
    {e : Entity} (h : r.toEntity mapping keys' = .ok e) :
    Write.OfRecord ι keys (e.key, some e.properties) := by
  intro properties hproperties hspace hkind
  obtain rfl := Option.some.inj hproperties
  have hkey := Record.key_toEntity h
  rw [hkey] at hspace hkind
  obtain rfl : keys' = keys := KeyFactory.eq_of_eq hspace hkind
  exact ⟨mapping, r, h⟩

theorem RecordStore.ofRecord_entitiesOf {mapping : ColumnMapping} {keys' : KeyFactory} :
    ∀ {records : List (Record ι)} {batch : List Entity},
      entitiesOf mapping keys' records = .ok batch →
      ∀ w ∈ Write.ofEntities batch, Write.OfRecord ι keys w
  | [], batch, h => by
    cases h
    intro w hw
    cases hw
  | r :: rest, batch, h => by
    obtain ⟨e, he, h⟩ := Outcome.bind_eq_ok h
    obtain ⟨es, hes, h⟩ := Outcome.bind_eq_ok h
    cases h
    intro w hw
    rcases List.mem_cons.mp hw with rfl | hw
    · exact Record.ofRecord_toEntity he
    · exact ofRecord_entitiesOf hes w hw

/-- A record store plans to write records, and to delete. -/
theorem Operation.writes_ofRecords {op : Operation ι} (hop : op.OfRecords)
    {settings : HandleSettings} {caller : Caller} {c : Connection} {ws : List Write}
    (h : op.writes settings caller c = .ok ws) : ∀ w ∈ ws, Write.OfRecord ι keys w := by
  have hnone : ∀ w ∈ ([] : List Write), Write.OfRecord ι keys w := fun w hw => by cases hw
  cases op with
  | read id | readAll ids | indexMatching p count | scan q count =>
    cases h
    exact hnone
  | write r =>
    obtain ⟨keys', -, h⟩ := Outcome.bind_eq_ok h
    obtain ⟨e, he, h⟩ := Outcome.bind_eq_ok h
    cases h
    intro w hw
    obtain rfl := List.mem_singleton.mp hw
    exact Record.ofRecord_toEntity he
  | writeAll records =>
    rw [writes] at h
    split at h
    · cases h
      exact hnone
    · obtain ⟨keys', -, h⟩ := Outcome.bind_eq_ok h
      obtain ⟨batch, hbatch, h⟩ := Outcome.bind_eq_ok h
      cases h
      exact RecordStore.ofRecord_entitiesOf hbatch
  | delete id =>
    obtain ⟨keys', -, h⟩ := Outcome.bind_eq_ok h
    cases h
    intro w hw properties hproperties
    obtain rfl := List.mem_singleton.mp hw
    cases hproperties
  | writeEntry | writeHistory | historyBackward | readHistory | truncate => exact hop.elim
  | readCount | writeCount | readFlags | writeFlags | aggregates => exact hop.elim

/-- However handles on records are used from the start, every namespace and kind has records only. -/
theorem recordsOnly_run {d : Deployment} (hempty : d.store.documents = ∅) (hslots : d.slots = [])
    {steps : List (Deployment.Step ι)} (hsteps : ∀ step ∈ steps, step.OfRecords) :
    RecordsOnly ι keys (Deployment.run steps d).store.documents := by
  refine Deployment.forall_document_run hempty hslots fun step hstep => ?_
  have hrecords := hsteps step hstep
  cases step with
  | operate h caller op => exact fun c ws hws => Operation.writes_ofRecords hrecords hws
  | openHandle | begin | commit | rollback | drop | failNext | close => trivial

end DocumentStore
