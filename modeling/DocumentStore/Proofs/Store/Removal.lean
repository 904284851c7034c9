import DocumentStore.Proofs.Store.Agreement
import DocumentStore.Proofs.Store.Writes
set_option autoImplicit false

/-!
# What deletions leave

Deleting keys leaves the documents of all other keys, and their entities in the same order.
-/

namespace DocumentStore

namespace Write

theorem get?_applyAll_ofDeleted (documents : SortedMap Key Properties) (keys : List Key) (k : Key) :
    (applyAll documents (ofDeleted keys)).get? k = if k ∈ keys then none else documents.get? k := by
  induction keys generalizing documents with
  | nil => rfl
  | cons key rest ih =>
    have hstep : applyAll documents (ofDeleted (key :: rest)) =
        applyAll (Staging.applyWrite documents key none) (ofDeleted rest) := rfl
    rw [hstep, ih, get?_applyWrite documents (key, none)]
    by_cases hkey : k = key <;> by_cases hmem : k ∈ rest <;> simp [hkey, hmem]

/-- Deleting keys filters the documents. -/
theorem applyAll_ofDeleted (documents : SortedMap Key Properties) (keys : List Key) :
    applyAll documents (ofDeleted keys) = documents.filter fun e => decide (e.1 ∉ keys) := by
  refine SortedMap.ext_get? fun k => Option.ext fun p => ?_
  have hfilter : (documents.filter fun e => decide (e.1 ∉ keys)).get? k = some p ↔
      documents.get? k = some p ∧ k ∉ keys := by
    rw [SortedMap.get?_eq_some_iff, SortedMap.get?_eq_some_iff, SortedMap.filter, List.mem_filter,
      decide_eq_true_iff]
  rw [get?_applyAll_ofDeleted, hfilter]
  split
  · next hmem => simp [hmem]
  · next hmem => simp [hmem]

/-- Deleting some keys and then others is deleting all of them. -/
theorem ofDeleted_append (keys more : List Key) :
    ofDeleted (keys ++ more) = ofDeleted keys ++ ofDeleted more := List.map_append

end Write

/-- The entities that are left when keys were deleted. -/
theorem Store.entities_of_deleted {s s' : Store} {keys : List Key}
    (h : s'.documents = Write.applyAll s.documents (Write.ofDeleted keys)) :
    s'.entities = s.entities.filter fun e => decide (e.key ∉ keys) := by
  rw [entities, entities, h, Write.applyAll_ofDeleted, SortedMap.filter, List.filter_map]
  rfl

end DocumentStore
