import DocumentStore.Store.Transaction
set_option autoImplicit false

/-!
# Writes and their order

A write binds a key to properties or, as a removal, to none.  Writes applied one after another leave
at each key what the last of them says.  A transaction keeps that last write only, and applies what
it keeps in key order: `applyStaged_eq_applyAll` says that this is no different from applying all
of the writes in the order in which they were made.
-/

namespace DocumentStore

/-- A key with its new properties, or with none if it is removed. -/
abbrev Write : Type := Key × Option Properties

namespace Write

/-- The writes of putting entities, in order. -/
def ofEntities (batch : List Entity) : List Write := batch.map fun e => (e.key, some e.properties)

/-- The writes of deleting keys, in order. -/
def ofDeleted (keys : List Key) : List Write := keys.map fun k => (k, none)

/-- Writes that are made only if a call succeeded. -/
def onSuccess {α : Type} (r : Outcome α) (ws : List Write) : List Write :=
  match r with
  | .ok _ => ws
  | .error _ => []

@[simp] theorem onSuccess_ok {α : Type} (a : α) (ws : List Write) :
    onSuccess (.ok a : Outcome α) ws = ws := rfl

@[simp] theorem onSuccess_error {α : Type} (e : StorageError) (ws : List Write) :
    onSuccess (.error e : Outcome α) ws = [] := rfl

@[simp] theorem onSuccess_nil {α : Type} (r : Outcome α) : onSuccess r [] = [] := by
  cases r <;> rfl

/-- Writes applied to documents one after another. -/
def applyAll (documents : SortedMap Key Properties) (ws : List Write) : SortedMap Key Properties :=
  ws.foldl (fun documents w => Staging.applyWrite documents w.1 w.2) documents

@[simp] theorem applyAll_nil (documents : SortedMap Key Properties) :
    applyAll documents [] = documents := rfl

theorem applyAll_append (documents : SortedMap Key Properties) (ws more : List Write) :
    applyAll documents (ws ++ more) = applyAll (applyAll documents ws) more :=
  List.foldl_append

theorem get?_applyWrite (documents : SortedMap Key Properties) (w : Write) (k : Key) :
    (Staging.applyWrite documents w.1 w.2).get? k = if k = w.1 then w.2 else documents.get? k := by
  obtain ⟨key, write⟩ := w
  cases write with
  | none => rw [Staging.applyWrite, SortedMap.get?_erase]
  | some p => rw [Staging.applyWrite, SortedMap.get?_insert]

-- The writes so far are kept as a map from keys to the last write of each, which is what a
-- transaction stages; the claim is an induction on the writes still to come.
theorem get?_foldl_applyWrite {base documents : SortedMap Key Properties}
    {last : SortedMap Key (Option Properties)}
    (h : ∀ k, documents.get? k = (last.get? k).getD (base.get? k)) (ws : List Write) (k : Key) :
    (applyAll documents ws).get? k =
      ((ws.foldl (fun m w => m.insert w.1 w.2) last).get? k).getD (base.get? k) := by
  induction ws generalizing documents last with
  | nil => exact h k
  | cons w rest ih =>
    apply ih
    intro k
    rw [get?_applyWrite, SortedMap.get?_insert]
    split
    · rfl
    · exact h k

/-- After writes each key is bound as the last of them says, or as before if there is none. -/
theorem get?_applyAll (documents : SortedMap Key Properties) (ws : List Write) (k : Key) :
    (applyAll documents ws).get? k = ((SortedMap.ofList ws).get? k).getD (documents.get? k) := by
  apply get?_foldl_applyWrite
  intro k
  rfl

theorem get?_applyAll_of_forall_ne {documents : SortedMap Key Properties} {ws : List Write} {k : Key}
    (h : ∀ w ∈ ws, w.1 ≠ k) : (applyAll documents ws).get? k = documents.get? k := by
  induction ws generalizing documents with
  | nil => rfl
  | cons w rest ih =>
    obtain ⟨hw, hrest⟩ := List.forall_mem_cons.mp h
    exact (ih hrest).trans ((get?_applyWrite documents w k).trans (if_neg (Ne.symm hw)))

/-- Putting entities in adds at most as many documents. -/
theorem size_applyAll_ofEntities_le (documents : SortedMap Key Properties) (batch : List Entity) :
    (applyAll documents (ofEntities batch)).size ≤ documents.size + batch.length := by
  induction batch generalizing documents with
  | nil => exact Nat.le_refl _
  | cons e rest ih =>
    have hinsert := SortedMap.size_insert_le documents e.key e.properties
    have hrest := ih (documents.insert e.key e.properties)
    rw [List.length_cons]
    exact Nat.le_trans hrest (by omega)

/-- Only the last write of each key matters. -/
theorem applyAll_congr {ws more : List Write} (h : SortedMap.ofList ws = SortedMap.ofList more)
    (documents : SortedMap Key Properties) : applyAll documents ws = applyAll documents more := by
  apply SortedMap.ext_get?
  intro k
  rw [get?_applyAll, get?_applyAll, h]

end Write

namespace Store

/-- The store with writes applied to its documents. -/
def write (s : Store) (ws : List Write) : Store :=
  { s with documents := Write.applyAll s.documents ws }

@[simp] theorem write_nil (s : Store) : s.write [] = s := rfl

theorem write_append (s : Store) (ws more : List Write) :
    s.write (ws ++ more) = (s.write ws).write more := by
  simp only [write, Write.applyAll_append]

theorem foldl_put1 (batch : List Entity) (s : Store) :
    batch.foldl put1 s = s.write (Write.ofEntities batch) := by
  induction batch generalizing s with
  | nil => rfl
  | cons e rest ih => exact ih _

theorem foldl_delete1 (keys : List Key) (s : Store) :
    keys.foldl delete1 s = s.write (Write.ofDeleted keys) := by
  induction keys generalizing s with
  | nil => rfl
  | cons k rest ih => exact ih _

end Store

namespace Staging

/-- A transaction with more writes staged, in order. -/
def stageAll (t : Transaction) (ws : List Write) : Transaction :=
  ws.foldl (fun t w => stage t w.1 w.2) t

@[simp] theorem stageAll_finished (t : Transaction) (ws : List Write) :
    (stageAll t ws).finished = t.finished := by
  induction ws generalizing t with
  | nil => rfl
  | cons w rest ih => exact ih _

theorem stageAll_append (t : Transaction) (ws more : List Write) :
    stageAll t (ws ++ more) = stageAll (stageAll t ws) more :=
  List.foldl_append

theorem staged_stageAll (t : Transaction) (ws : List Write) :
    (stageAll t ws).staged = ws.foldl (fun m w => m.insert w.1 w.2) t.staged := by
  induction ws generalizing t with
  | nil => rfl
  | cons w rest ih => exact ih _

/-- The writes a transaction has staged, once those of a list were staged first and then others. -/
theorem staged_stageAll_ofList {t : Transaction} {ws : List Write}
    (h : t.staged = SortedMap.ofList ws) (more : List Write) :
    (stageAll t more).staged = SortedMap.ofList (ws ++ more) := by
  rw [staged_stageAll, h, SortedMap.ofList, SortedMap.ofList, List.foldl_append]

theorem foldl_stage_entities (batch : List Entity) (t : Transaction) :
    batch.foldl (fun t e => stage t e.key (some e.properties)) t =
      stageAll t (Write.ofEntities batch) := by
  rw [stageAll, Write.ofEntities, List.foldl_map]

theorem foldl_stage_deleted (keys : List Key) (t : Transaction) :
    keys.foldl (fun t k => stage t k none) t = stageAll t (Write.ofDeleted keys) := by
  rw [stageAll, Write.ofDeleted, List.foldl_map]

/-- Applying the staged writes in key order is applying all writes in the order in which they were
made. -/
theorem applyStaged_eq_applyAll {t : Transaction} {ws : List Write}
    (h : t.staged = SortedMap.ofList ws) (documents : SortedMap Key Properties) :
    applyStaged documents t = Write.applyAll documents ws := by
  apply Write.applyAll_congr
  rw [SortedMap.ofList_entries, h]

/-- What a transaction sees of a store is the store with its staged writes applied. -/
theorem view_find? {t : Transaction} {ws : List Write} (h : t.staged = SortedMap.ofList ws)
    (s : Store) (k : Key) : view t k (s.find? k) = (s.write ws).find? k := by
  rw [view, Store.find?, Store.find?, Store.write, Write.get?_applyAll, ← h]
  cases t.staged.get? k <;> rfl

end Staging

end DocumentStore
