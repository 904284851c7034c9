import DocumentStore.Aggregate.Basic
import DocumentStore.Interchange.Form
import DocumentStore.Tenancy.Tenant
set_option autoImplicit false

/-!
# Histories in interchange

The forms of events, snapshots, histories and lifecycle flags, and of the tenants they belong to.
-/

namespace DocumentStore

open JsonForm JsonReader

instance : JsonForm Tenant where
  write
    | .domain s => writeVariant "Domain" (write s)
    | .email s => writeVariant "Email" (write s)
    | .value s => writeVariant "Value" (write s)
  read := variant (fun _ => none) fun
    | "Domain" => some (map .domain read)
    | "Email" => some (map .email read)
    | "Value" => some (map .value read)
    | _ => none

instance : JsonForm Event where
  write e := Json.objectText
    [("id", write e.id), ("version", toString e.version), ("timestamp", write e.timestamp),
     ("payload", write e.payload)]
  read := record ["id", "version", "timestamp", "payload"] fun f room => do
    let id ← f.required room "id" read
    let version ← f.required room "version" int64
    let timestamp ← f.required room "timestamp" read
    let payload ← f.required room "payload" read
    some ⟨id, version, timestamp, payload⟩

instance : JsonForm Snapshot where
  write s := Json.objectText
    [("version", toString s.version), ("timestamp", write s.timestamp), ("payload", write s.payload)]
  read := record ["version", "timestamp", "payload"] fun f room => do
    let version ← f.required room "version" int64
    let timestamp ← f.required room "timestamp" read
    let payload ← f.required room "payload" read
    some ⟨version, timestamp, payload⟩

instance : JsonForm HistoryRecord where
  write
    | .event e => writeVariant "Event" (write e)
    | .snapshot s => writeVariant "Snapshot" (write s)
  read := variant (fun _ => none) fun
    | "Event" => some (map .event read)
    | "Snapshot" => some (map .snapshot read)
    | _ => none

instance : JsonForm AggregateHistory where
  write h := Json.objectText [("snapshot", write h.snapshot), ("events", write h.events)]
  read := record ["snapshot", "events"] fun f room => do
    let latest ← f.optional room "snapshot" read
    let events ← f.required room "events" read
    some ⟨latest, events⟩

instance : JsonForm LifecycleFlags where
  write f := Json.objectText [("archived", write f.archived), ("deleted", write f.deleted)]
  read := record ["archived", "deleted"] fun f room => do
    let archived ← f.required room "archived" read
    let deleted ← f.required room "deleted" read
    some ⟨archived, deleted⟩

end DocumentStore
