import DocumentStore.Proofs.Access.Atomic
import DocumentStore.Proofs.Access.Counts
import DocumentStore.Proofs.Access.Refusals
set_option autoImplicit false

/-!
# Bulk calls, part by part

A bulk operation straight on the store makes one call for each part of its items.  Between two calls
others can use the store, and let any later call fail; `Session.amid` is the operation with such
failures in the meantime.  `Connection.InParts` says how it ends.  With all calls successful it has done
for every item what it does for one, in order, in as few calls as the limit allows.  Otherwise it stops
at the call that failed, with the items of the calls before it done and no others.
-/

namespace DocumentStore

/-! ## Parts of a list -/

section Parts

variable {α : Type}

theorem chunks_of_ne_nil (n : Nat) {l : List α} (h : l ≠ []) :
    chunks n l = l.take (max n 1) :: chunks n (l.drop (max n 1)) := by
  cases l with
  | nil => exact absurd rfl h
  | cons a rest =>
    have hsize : max n 1 = n - 1 + 1 := by omega
    rw [chunks, hsize, List.take_succ_cons, List.drop_succ_cons]

/-- Part `i` begins after `i` whole parts. -/
theorem chunks_eq_map_range (n : Nat) (l : List α) :
    chunks n l =
      (List.range (l.length ⌈/⌉ max n 1)).map fun i => (l.drop (i * max n 1)).take (max n 1) := by
  have hsize : 0 < max n 1 := Nat.le_max_right n 1
  induction hlength : l.length using Nat.strongRecOn generalizing l with
  | ind count ih =>
    subst hlength
    cases hl : l with
    | nil => rw [chunks, List.length_nil, zero_ceilDiv, List.range_zero, List.map_nil]
    | cons a rest =>
      have hne : l ≠ [] := by simp [hl]
      have hpositive : 0 < l.length := List.length_pos_of_ne_nil hne
      have hrest := ih (l.drop (max n 1)).length (by rw [List.length_drop]; omega) _ rfl
      rw [← hl, chunks_of_ne_nil n hne, ceilDiv_eq_succ hsize hpositive, List.range_succ_eq_map,
        List.map_cons, List.map_map, hrest, List.length_drop, Nat.zero_mul, List.drop_zero]
      simp only [List.drop_drop, Function.comp_def, Nat.succ_mul, Nat.add_comm]

theorem length_chunks (n : Nat) (l : List α) : (chunks n l).length = l.length ⌈/⌉ max n 1 := by
  rw [chunks_eq_map_range, List.length_map, List.length_range]

theorem getElem_chunks {n k : Nat} {l : List α} (h : k < (chunks n l).length) :
    (chunks n l)[k] = (l.drop (k * max n 1)).take (max n 1) := by
  simp only [chunks_eq_map_range, List.getElem_map, List.getElem_range]

/-- The items of the first parts. -/
theorem flatten_take_chunks (n k : Nat) (l : List α) :
    ((chunks n l).take k).flatten = l.take (k * max n 1) := by
  induction k generalizing l with
  | zero => rw [Nat.zero_mul, List.take_zero, List.take_zero, List.flatten_nil]
  | succ k ih =>
    cases hl : l with
    | nil => rw [chunks, List.take_nil, List.take_nil, List.flatten_nil]
    | cons a rest =>
      rw [← hl, chunks_of_ne_nil n (by simp [hl]), List.take_succ_cons, List.flatten_cons, ih,
        Nat.succ_mul, Nat.add_comm, List.take_add]

theorem mul_lt_length_of_lt {n k : Nat} {l : List α} (h : k < (chunks n l).length) :
    k * max n 1 < l.length := by
  have hsize : 0 < max n 1 := Nat.le_max_right n 1
  rw [length_chunks] at h
  rw [Nat.mul_comm, ← Nat.not_le, ← ceilDiv_le_iff_le_mul hsize]
  exact Nat.not_le.mpr h

end Parts

/-! ## Stores after some calls -/

namespace Store

/-- The store after others have let it fail later, each failure in turn. -/
def told (s : Store) (failures : List (FailurePoint × String)) : Store :=
  failures.foldl (fun s f => s.failNext f.1 f.2) s

theorem told_eq (s : Store) (failures : List (FailurePoint × String)) :
    s.told failures = { s with failures := s.failures ++ failures } := by
  unfold told
  induction failures generalizing s with
  | nil => simp
  | cons f rest ih =>
    rw [List.foldl_cons, ih]
    simp only [failNext, List.append_assoc, List.singleton_append]

@[simp] theorem told_documents (s : Store) (failures : List (FailurePoint × String)) :
    (s.told failures).documents = s.documents := by
  rw [told_eq]

@[simp] theorem told_failures (s : Store) (failures : List (FailurePoint × String)) :
    (s.told failures).failures = s.failures ++ failures := by
  rw [told_eq]

/-- The store with other documents and more calls of one kind counted, whatever failures wait. -/
structure Advanced (kind : CallKind) (n : Nat) (documents : SortedMap Key Properties)
    (s s' : Store) : Prop where
  sameData : SameData { s with documents } s'
  calls : s'.calls = s.calls.bumps kind n

namespace Advanced

variable {kind : CallKind} {n m : Nat} {documents documents' : SortedMap Key Properties}
  {s s' s'' : Store}

theorem told (kind : CallKind) (s : Store) (failures : List (FailurePoint × String)) :
    Advanced kind 0 s.documents s (s.told failures) := by
  rw [told_eq]
  exact ⟨⟨rfl, rfl, rfl, rfl⟩, rfl⟩

theorem trans (h : Advanced kind n documents s s') (h' : Advanced kind m documents' s' s'') :
    Advanced kind (n + m) documents' s s'' where
  sameData := by
    obtain ⟨-, hlimits, hpage, hactive⟩ := h.sameData
    obtain ⟨hdocuments', hlimits', hpage', hactive'⟩ := h'.sameData
    exact ⟨hdocuments', hlimits'.trans hlimits, hpage'.trans hpage, hactive'.trans hactive⟩
  calls := by rw [h'.calls, h.calls, CallCounts.bumps_bumps]

theorem withDocuments (h : Advanced kind n documents s s') :
    Advanced kind n documents' s { s' with documents := documents' } where
  sameData := ⟨rfl, h.sameData.limits, h.sameData.pageLimit, h.sameData.active⟩
  calls := h.calls

end Advanced

/-- A call that carries no more items than it may fails only with a failure that waited for it. -/
theorem admission_of_room {kind : CallKind} {count : Nat} {s : Store}
    (hroom : ∀ limit, s.itemLimit? kind = some limit → count ≤ limit) :
    (∃ message, (.call kind, message) ∈ s.failures ∧ ∃ s', admission kind count s =
        (.error (.backend (FailurePoint.call kind).describe message), s') ∧
        Advanced kind 1 s.documents s s') ∨
      ∃ s', admission kind count s = (.ok (), s') ∧ s'.failures = s.failures ∧
        Advanced kind 1 s.documents s s' := by
  cases hwaiting : s.failures.find? (·.1 = .call kind) with
  | none =>
    refine .inr ⟨_, admission_of_admits ⟨hwaiting, hroom⟩ (Nat.le_refl _), rfl, ?_⟩
    exact ⟨⟨rfl, rfl, rfl, rfl⟩, rfl⟩
  | some f =>
    have hpoint : f.1 = .call kind := by simpa using List.find?_some hwaiting
    have hmem : (.call kind, f.2) ∈ s.failures := by
      rw [← hpoint]
      exact List.mem_of_find?_eq_some hwaiting
    refine .inl ⟨f.2, hmem, _, by rw [admission_apply, hwaiting], ?_⟩
    exact ⟨⟨rfl, rfl, rfl, rfl⟩, rfl⟩

end Store

/-! ## Calls with failures in the meantime -/

namespace Session

/-- One call after another, with failures that others let happen before each of them, by number. -/
def amid {α β : Type} (failures : Nat → List (FailurePoint × String)) (f : α → Action Session β) :
    List α → Action Session (List β)
  | [] => pure []
  | a :: rest => do
    Action.modify fun s => { s with store := s.store.told (failures 0) }
    let b ← f a
    let bs ← amid (fun i => failures (i + 1)) f rest
    return b :: bs

/-- The lookup call for one part of the keys. -/
def lookupPart (keys : List Key) : Action Session (List (Option Entity)) :=
  call .lookup (Store.lookup keys) (Staging.lookup keys)

/-- The put call for one part of the entities. -/
def putPart (batch : List Entity) : Action Session Unit := do
  call .put (Store.put batch) (Staging.put batch)
  Action.modify fun s => { s with metrics := s.metrics.accept batch.length }

/-- The delete call for one part of the keys. -/
def deletePart (keys : List Key) : Action Session Unit :=
  call .delete (Store.delete keys) (Staging.delete keys)

theorem lookupChunks_eq_amid (parts : List (List Key)) :
    lookupChunks parts = List.flatten <$> amid (fun _ => []) lookupPart parts := by
  induction parts with
  | nil => rfl
  | cons keys rest ih =>
    rw [lookupChunks, ih, amid]
    simp only [map_eq_pure_bind, bind_assoc, pure_bind, List.flatten_cons]
    rfl

theorem putChunks_eq_amid (parts : List (List Entity)) :
    putChunks parts = (fun _ => ()) <$> amid (fun _ => []) putPart parts := by
  induction parts with
  | nil => rfl
  | cons batch rest ih =>
    rw [putChunks, ih, amid]
    simp only [putPart, map_eq_pure_bind, bind_assoc, pure_bind]
    rfl

theorem deleteChunks_eq_amid (parts : List (List Key)) :
    deleteChunks parts = (fun _ => ()) <$> amid (fun _ => []) deletePart parts := by
  induction parts with
  | nil => rfl
  | cons keys rest ih =>
    rw [deleteChunks, ih, amid]
    simp only [deletePart, map_eq_pure_bind, bind_assoc, pure_bind]
    rfl

/-- A call for each part of the items, straight on the store, that changes the documents for one item
after another.  What it answers does not depend on what such calls change. -/
structure OnStore {α β : Type} (kind : CallKind)
    (step : SortedMap Key Properties → α → SortedMap Key Properties)
    (answer : SortedMap Key Properties → List α → β) (direct : List α → Action Store β)
    (f : List α → Action Session β) : Prop where
  admitted : ∀ part s, direct part s =
    match Store.admission kind part.length s with
    | (.error e, s) => (.error e, s)
    | (.ok (), s) =>
      (.ok (answer s.documents part), { s with documents := part.foldl step s.documents })
  session : ∀ part (s : Session), s.transaction = none → ∃ metrics,
    f part s = ((direct part s.store).1, ⟨(direct part s.store).2, none, metrics⟩)
  fixed : ∀ (part : List α) (documents : SortedMap Key Properties),
    answer (part.foldl step documents) = answer documents

theorem call_session {α : Type} (kind : CallKind) (direct : Action Store α)
    (staged : Action Staging α) {s : Session} (h : s.transaction = none) :
    ∃ metrics, call kind direct staged s =
      ((direct s.store).1, ⟨(direct s.store).2, none, metrics⟩) := by
  rw [call, h]
  exact ⟨_, rfl⟩

/-- What is found for keys among documents. -/
def found (documents : SortedMap Key Properties) (keys : List Key) : List (Option Entity) :=
  keys.map fun k => (documents.get? k).map fun p => ⟨k, p⟩

theorem lookup_onStore :
    OnStore .lookup (fun documents _ => documents) found Store.lookup lookupPart where
  admitted keys s := by
    rw [Store.lookup_eq, Action.bind_apply]
    rcases Store.admission .lookup keys.length s with ⟨_ | _, s'⟩
    · rfl
    · simp only [List.foldl_fixed]
      rfl
  session keys _ h := call_session .lookup _ (Staging.lookup keys) h
  fixed _ _ := by rw [List.foldl_fixed]

theorem put_onStore :
    OnStore .put (fun documents e => documents.insert e.key e.properties) (fun _ _ => ())
      Store.put putPart where
  admitted batch s := by
    rw [(put_writes batch).onStore, Write.ofEntities]
    rcases Store.admission .put batch.length s with ⟨_ | _, s'⟩
    · rfl
    · simp only [Store.write, Write.applyAll, List.foldl_map, Staging.applyWrite]
  session batch s h := by
    obtain ⟨metrics, hcall⟩ := call_session .put (Store.put batch) (Staging.put batch) h
    rw [putPart, Action.bind_apply, hcall]
    rcases Store.put batch s.store with ⟨_ | _, store⟩ <;> exact ⟨_, rfl⟩
  fixed _ _ := rfl

theorem delete_onStore :
    OnStore .delete SortedMap.erase (fun _ _ => ()) Store.delete deletePart where
  admitted keys s := by
    rw [(delete_writes keys).onStore, Write.ofDeleted]
    rcases Store.admission .delete keys.length s with ⟨_ | _, s'⟩
    · rfl
    · simp only [Store.write, Write.applyAll, List.foldl_map, Staging.applyWrite]
  session keys _ h := call_session .delete _ (Staging.delete keys) h
  fixed _ _ := rfl

section Run

variable {α β : Type} {kind : CallKind}
  {step : SortedMap Key Properties → α → SortedMap Key Properties}
  {answer : SortedMap Key Properties → List α → β} {direct : List α → Action Store β}
  {f : List α → Action Session β}

/-- How the calls for parts end: all of them succeed, or one fails and is the last. -/
inductive Ran (kind : CallKind) (step : SortedMap Key Properties → α → SortedMap Key Properties)
    (direct : List α → Action Store β) (failures : Nat → List (FailurePoint × String))
    (parts : List (List α)) (answers : List β) (s : Store) : Outcome (List β) × Store → Prop
  | all {s' : Store}
    (hleft : s.Advanced kind parts.length (parts.flatten.foldl step s.documents) s') :
    Ran kind step direct failures parts answers s (.ok answers, s')
  | stopped {s' : Store} (k : Nat) (hk : k < parts.length) (before : Store) (message : String)
    (hbefore : s.Advanced kind k ((parts.take k).flatten.foldl step s.documents) before)
    (hcall : direct parts[k] before =
      (.error (.backend (FailurePoint.call kind).describe message), s'))
    (hleft : s.Advanced kind (k + 1) ((parts.take k).flatten.foldl step s.documents) s')
    (htold : (.call kind, message) ∈ s.failures ∨ ∃ i ≤ k, (.call kind, message) ∈ failures i) :
    Ran kind step direct failures parts answers s
      (.error (.backend (FailurePoint.call kind).describe message), s')

/-- Calls that go on after one that succeeded. -/
theorem Ran.after {failures : Nat → List (FailurePoint × String)} {part : List α}
    {rest : List (List α)} {b : β} {bs : List β} {s s₁ : Store} {r : Outcome (List β)} {s₂ : Store}
    (hmade : s.Advanced kind 1 (part.foldl step s.documents) s₁)
    (hkept : s₁.failures = s.failures ++ failures 0)
    (h : Ran kind step direct (fun i => failures (i + 1)) rest bs s₁ (r, s₂)) :
    Ran kind step direct failures (part :: rest) (b :: bs) s (r.map (b :: ·), s₂) := by
  have hdocuments : s₁.documents = part.foldl step s.documents := hmade.sameData.documents
  cases h with
  | all hleft =>
    have hall := hmade.trans hleft
    rw [hdocuments, ← List.foldl_append, ← List.flatten_cons, Nat.add_comm] at hall
    exact .all hall
  | stopped k hk before message hbefore hcall hleft htold =>
    have hbefore' := hmade.trans hbefore
    have hleft' := hmade.trans hleft
    rw [hdocuments, ← List.foldl_append, ← List.flatten_cons, ← List.take_succ_cons, Nat.add_comm]
      at hbefore' hleft'
    have hk' : k + 1 < (part :: rest).length := Nat.succ_lt_succ hk
    refine .stopped (k + 1) hk' before message hbefore' hcall hleft' ?_
    rw [hkept, List.mem_append] at htold
    rcases htold with (hbefore | hfirst) | ⟨i, hi, hlater⟩
    · exact .inl hbefore
    · exact .inr ⟨0, Nat.zero_le _, hfirst⟩
    · exact .inr ⟨i + 1, Nat.succ_le_succ hi, hlater⟩

-- The induction is on the parts.  After a call that succeeded the rest run on the store it left, whose
-- waiting failures are those of before and the ones told for that call.
theorem OnStore.amid (h : OnStore kind step answer direct f)
    (failures : Nat → List (FailurePoint × String)) {parts : List (List α)} {s : Session}
    (hdirect : s.transaction = none)
    (hroom : ∀ part ∈ parts, ∀ limit, s.store.itemLimit? kind = some limit → part.length ≤ limit) :
    Ran kind step direct failures parts (parts.map (answer s.store.documents)) s.store
      ((Session.amid failures f parts s).1, (Session.amid failures f parts s).2.store) := by
  induction parts generalizing failures s with
  | nil => exact .all ⟨.refl _, rfl⟩
  | cons part rest ih =>
    obtain ⟨hpart, hrest⟩ := List.forall_mem_cons.mp hroom
    have htold := Store.Advanced.told kind s.store (failures 0)
    have hlimits := Store.itemLimit?_congr htold.sameData.limits kind
    obtain ⟨metrics, hcall⟩ := h.session part { s with store := s.store.told (failures 0) } hdirect
    have hadmitted := h.admitted part (s.store.told (failures 0))
    rw [Session.amid, Action.bind_apply, Action.modify]
    dsimp only
    rw [Action.bind_apply, hcall]
    rcases Store.admission_of_room (hlimits ▸ hpart) with
      ⟨message, hmem, s', hadmission, hleft⟩ | ⟨s', hadmission, hkept, hleft⟩ <;>
      rw [hadmission] at hadmitted <;> dsimp only at hadmitted ⊢
    · have hstopped := htold.trans hleft
      have hfirst : 0 < (part :: rest).length := Nat.succ_pos _
      rw [Store.told_failures, List.mem_append] at hmem
      rw [Store.told_documents] at hstopped
      rw [hadmitted]
      refine .stopped 0 hfirst _ message htold hadmitted hstopped ?_
      exact hmem.imp_right fun hmem => ⟨0, Nat.le_refl _, hmem⟩
    · have hdocuments : s'.documents = s.store.documents :=
        hleft.sameData.documents.trans (Store.told_documents ..)
      rw [hdocuments] at hadmitted
      have hmade : s.store.Advanced kind 1 (part.foldl step s.store.documents)
          { s' with documents := part.foldl step s.store.documents } :=
        (htold.trans hleft).withDocuments
      have hrest' := ih (fun i => failures (i + 1))
        (s := ⟨{ s' with documents := part.foldl step s.store.documents }, none, metrics⟩) rfl
        fun part hmem limit hlimit => hrest part hmem limit
          (Store.itemLimit?_congr hmade.sameData.limits kind ▸ hlimit)
      simp only [h.fixed] at hrest'
      rw [hadmitted]
      dsimp only
      rw [Action.bind_apply]
      rcases hr : Session.amid (fun i => failures (i + 1)) f rest
          ⟨{ s' with documents := part.foldl step s.store.documents }, none, metrics⟩ with ⟨r, s₂⟩
      rw [hr] at hrest'
      have hall := hrest'.after hmade (hkept.trans (Store.told_failures ..))
        (b := answer s.store.documents part)
      cases r with
      | error e => exact hall
      | ok bs => exact hall

end Run

end Session

namespace Connection

variable {α β γ : Type} {kind : CallKind}
  {step : SortedMap Key Properties → α → SortedMap Key Properties}
  {answer : SortedMap Key Properties → List α → β} {direct : List α → Action Store β}
  {f : List α → Action Session β} {policy : Policy} {c : Connection}

/-- A connection that is open and whose operations go straight to the store under a policy. -/
structure Direct (policy : Policy) (c : Connection) : Prop where
  isOpen : c.closed = false
  inactive : c.slot.isActive = false
  policy : policy.transactional = false

/-- An operation in calls of at most `limit` items, one call after another, with failures that others
let happen before each of them. -/
def bulk (failures : Nat → List (FailurePoint × String)) (policy : Policy)
    (operation : OperationKind) (limit : Nat) (f : List α → Action Session β)
    (gather : List β → γ) (items : List α) (label : String) : Action Connection γ :=
  execute policy operation label (gather <$> Session.amid failures f (chunks limit items))

/-- How an operation ends that was made in calls of at most `limit` items. -/
inductive InParts (kind : CallKind)
    (step : SortedMap Key Properties → α → SortedMap Key Properties)
    (direct : List α → Action Store β) (failures : Nat → List (FailurePoint × String)) (limit : Nat)
    (items : List α) (label : String) (answer : γ) (c : Connection) : Outcome γ × Connection → Prop
  /-- Every call succeeds, and every item is done in order. -/
  | done {c' : Connection}
    (hleft : c.store.Advanced kind (items.length ⌈/⌉ limit) (items.foldl step c.store.documents)
      c'.store) :
    InParts kind step direct failures limit items label answer c (.ok answer, c')
  /-- After `k` calls one fails, because that failure waited for it, and is the last. -/
  | stopped {c' : Connection} (k : Nat) (before : Store) (message : String)
    (hless : k * limit < items.length)
    (hbefore : c.store.Advanced kind k ((items.take (k * limit)).foldl step c.store.documents) before)
    (hcall : direct ((items.drop (k * limit)).take limit) before =
      (.error (.backend (FailurePoint.call kind).describe message), c'.store))
    (hleft : c.store.Advanced kind (k + 1) ((items.take (k * limit)).foldl step c.store.documents)
      c'.store)
    (htold : (.call kind, message) ∈ c.store.failures ∨
      ∃ i ≤ k, (.call kind, message) ∈ failures i) :
    InParts kind step direct failures limit items label answer c
      (.error (.backend (label ++ "; " ++ (FailurePoint.call kind).describe) message), c')

theorem lookup_eq_bulk (policy : Policy) : lookup policy =
    bulk (fun _ => []) policy .read policy.limits.read Session.lookupPart List.flatten := by
  funext keys label
  rw [lookup, bulk, Session.lookup, Session.lookupChunks_eq_amid]

theorem put_eq_bulk (policy : Policy) : put policy =
    bulk (fun _ => []) policy .write policy.limits.write Session.putPart fun _ => () := by
  funext batch label
  rw [put, bulk, Session.put, Session.putChunks_eq_amid]

theorem delete_eq_bulk (policy : Policy) : delete policy =
    bulk (fun _ => []) policy .write policy.limits.write Session.deletePart fun _ => () := by
  funext keys label
  rw [delete, bulk, Session.delete, Session.deleteChunks_eq_amid]

theorem Direct.bulk (hc : c.Direct policy) (h : Session.OnStore kind step answer direct f)
    (failures : Nat → List (FailurePoint × String)) (operation : OperationKind) {limit : Nat}
    (hroom : ∀ most, c.store.itemLimit? kind = some most → max limit 1 ≤ most)
    (gather : List β → γ) (items : List α) (label : String) :
    InParts kind step direct failures (max limit 1) items label
      (gather ((chunks limit items).map (answer c.store.documents))) c
      (Connection.bulk failures policy operation limit f gather items label c) := by
  have hparts : ∀ part ∈ chunks limit items, ∀ most,
      (c.session none).store.itemLimit? kind = some most → part.length ≤ most :=
    fun part hpart most hmost => Nat.le_trans (length_le_of_mem_chunks hpart) (hroom most hmost)
  have hran := h.amid failures rfl hparts
  rw [Connection.bulk, execute_of_inactive hc.isOpen hc.inactive, if_neg (by simp [hc.policy]),
    executeDirectly, map_eq_pure_bind, Action.bind_apply]
  rcases hr : Session.amid failures f (chunks limit items) (c.session none) with ⟨r, s⟩
  rw [hr] at hran
  cases hran with
  | all hleft =>
    rw [flatten_chunks, length_chunks] at hleft
    exact .done hleft
  | stopped k hk before message hbefore hcall hleft htold =>
    rw [flatten_take_chunks] at hbefore hleft
    rw [getElem_chunks] at hcall
    exact .stopped k before message (mul_lt_length_of_lt hk) hbefore hcall hleft htold

end Connection

end DocumentStore
