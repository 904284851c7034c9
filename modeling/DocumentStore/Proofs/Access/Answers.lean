import DocumentStore.Proofs.Access.Atomic
import DocumentStore.Proofs.Access.Serving
import DocumentStore.Proofs.Access.Wrote
set_option autoImplicit false

/-!
# Calls that are answered

A store without failures to come answers every call that is within its limits.  Bulk calls are split
into chunks of a handle's limits, so they are answered if these are within the limits of the store;
so are operations, which then make all of their writes.
-/

namespace DocumentStore

/-! ## The store -/

/-- Whether a store has no failure to come, and lets chunks within limits in. -/
structure Store.Ready (limits : BatchLimits) (s : Store) : Prop where
  failures : s.failures = []
  read : max limits.read 1 ≤ s.limits.read
  write : max limits.write 1 ≤ s.limits.write

namespace Store

variable {limits : BatchLimits} {s s' : Store}

theorem admission_ready (h : s.failures = []) (kind : CallKind) {count limit : Nat}
    (hlimit : s.itemLimit? kind = some limit) (hcount : count ≤ limit) :
    admission kind count s = (.ok (), { s with calls := s.calls.bump kind }) := by
  rw [admission_apply, h]
  simp only [List.find?_nil, hlimit, if_neg (Nat.not_lt.mpr hcount)]

end Store

/-! ## Sessions -/

namespace Session

variable {limits : BatchLimits} {s : Session}

/-- An entity as a look-up of the session finds it. -/
def view (s : Session) (k : Key) : Option Entity :=
  match s.transaction with
  | none => s.store.find? k
  | some t => Staging.view t k (s.store.find? k)

theorem view_of_none (h : s.transaction = none) : s.view = s.store.find? := by
  funext k
  rw [view, h]

theorem view_of_some {t : Transaction} (h : s.transaction = some t) :
    s.view = fun k => Staging.view t k (s.store.find? k) := by
  funext k
  rw [view, h]

/-- Calls that are answered with `answer` by a store that is ready. -/
def Answers {α : Type} (limits : BatchLimits) (body : Action Session α) (answer : Session → α) :
    Prop :=
  ∀ s, s.Unfinished → s.store.Ready limits → (body s).1 = .ok (answer s)

/-- What calls that only read leave is viewed as before. -/
theorem Did.view {s' : Session} (h : Did [] s s') : s'.view = s.view := by
  unfold Did at h
  cases ht : s.transaction with
  | none =>
    rw [ht] at h
    rw [view_of_none ht, view_of_none h.1, Store.find?_congr h.2.documents, Store.write_nil]
  | some t =>
    rw [ht] at h
    rw [view_of_some ht, view_of_some h.1, Store.find?_congr h.2.documents]
    rfl

/-- Calls that are answered leave the session ready for more. -/
theorem Performed.next {α : Type} {ws : List Write} {a : α} {s' : Session}
    (h : Performed ws s (.ok a) s') (hs : s.Unfinished) (hready : s.store.Ready limits) :
    Did ws s s' ∧ s'.Unfinished ∧ s'.store.Ready limits := by
  obtain ⟨done, -, hdid, hdone⟩ := h.effect
  obtain rfl := hdone a rfl
  refine ⟨hdid, hdid.unfinished hs, ?_⟩
  have hlimits : s'.store.limits = s.store.limits := by
    unfold Did at hdid
    split at hdid
    · exact hdid.2.limits
    · exact hdid.2.limits
  exact ⟨(h.unfailed a rfl).waiting.trans hready.failures, hlimits ▸ hready.read,
    hlimits ▸ hready.write⟩

/-- One call within the limits. -/
theorem call_answers {α : Type} (kind : CallKind) {direct : Action Store α}
    {staged : Action Staging α} {answer : Session → α}
    (hdirect : ∀ s : Session, s.transaction = none → s.store.Ready limits →
      (direct s.store).1 = .ok (answer s))
    (hstaged : ∀ (s : Session) (t : Transaction), s.transaction = some t → t.finished = false →
      s.store.Ready limits → (staged ⟨s.store, t⟩).1 = .ok (answer s)) :
    Answers limits (call kind direct staged) answer := by
  intro s hs hready
  unfold call
  cases ht : s.transaction with
  | none => exact hdirect s ht hready
  | some t => exact hstaged s t ht (hs t ht) hready

/-- A look-up of keys that the store lets in. -/
theorem lookupCall_ok {keys : List Key} (hs : s.Unfinished) (hcalm : s.store.failures = [])
    (hroom : keys.length ≤ s.store.limits.read) :
    (call .lookup (Store.lookup keys) (Staging.lookup keys) s).1 = .ok (keys.map s.view) := by
  have hadmitted := Store.admission_ready hcalm .lookup rfl hroom
  unfold call
  cases ht : s.transaction with
  | none =>
    dsimp only
    rw [Store.lookup_eq, Action.bind_ok hadmitted, view_of_none ht]
    rfl
  | some t =>
    dsimp only
    rw [Staging.lookup_unfinished (g := ⟨s.store, t⟩) (hs t ht), view_of_some ht]
    simp only [hadmitted]
    rfl

theorem lookupCall_answers {keys : List Key} (h : keys.length ≤ max limits.read 1) :
    Answers limits (call .lookup (Store.lookup keys) (Staging.lookup keys))
      fun s => keys.map s.view :=
  fun _ hs hready => lookupCall_ok hs hready.failures (Nat.le_trans h hready.read)

theorem putCall_answers {batch : List Entity} (h : batch.length ≤ max limits.write 1) :
    Answers limits (call .put (Store.put batch) (Staging.put batch)) fun _ => () := by
  have hadmitted (s : Store) (hready : s.Ready limits) := Store.admission_ready hready.failures
    .put rfl (Nat.le_trans h hready.write)
  refine call_answers .put (fun s ht hready => ?_) (fun s t ht hfinished hready => ?_)
  · rw [Store.put_eq, Action.bind_ok (hadmitted s.store hready)]
    rfl
  · rw [Staging.put_unfinished (g := ⟨s.store, t⟩) hfinished]
    simp only [hadmitted s.store hready]

theorem deleteCall_answers {keys : List Key} (h : keys.length ≤ max limits.write 1) :
    Answers limits (call .delete (Store.delete keys) (Staging.delete keys)) fun _ => () := by
  have hadmitted (s : Store) (hready : s.Ready limits) := Store.admission_ready hready.failures
    .delete rfl (Nat.le_trans h hready.write)
  refine call_answers .delete (fun s ht hready => ?_) (fun s t ht hfinished hready => ?_)
  · rw [Store.delete_eq, Action.bind_ok (hadmitted s.store hready)]
    rfl
  · rw [Staging.delete_unfinished (g := ⟨s.store, t⟩) hfinished]
    simp only [hadmitted s.store hready]

/-! ### Bulk calls -/

/-- Calls after others that are answered: they find the session as those left it. -/
theorem Answers.bind {α β : Type} {x : Action Session α} {f : α → Action Session β}
    {first : Session → α} {answer : Session → β} {ws : List Write} (hx : Answers limits x first)
    (hperforms : Performs x ws)
    (hf : ∀ s s', Did ws s s' → s'.Unfinished → s'.store.Ready limits →
      (f (first s) s').1 = .ok (answer s)) :
    Answers limits (x >>= f) answer := by
  intro s hs hready
  have hfirst := hx s hs hready
  have hperformed := hperforms s hs
  rw [Action.bind_apply]
  rcases hr : x s with ⟨r, s'⟩
  rw [hr] at hfirst hperformed
  obtain rfl : r = .ok (first s) := hfirst
  obtain ⟨hdid, hs', hready'⟩ := hperformed.next hs hready
  exact hf s s' hdid hs' hready'

theorem lookupChunks_answers {parts : List (List Key)}
    (h : ∀ keys ∈ parts, keys.length ≤ max limits.read 1) :
    Answers limits (lookupChunks parts) fun s => parts.flatten.map s.view := by
  induction parts with
  | nil => exact fun _ _ _ => rfl
  | cons keys rest ih =>
    obtain ⟨hkeys, hrest⟩ := List.forall_mem_cons.mp h
    have hperforms := Performs.call .lookup (Store.lookup_makes keys) (Staging.lookup_stages keys)
    refine (lookupCall_answers hkeys).bind hperforms fun s s' hdid hs' hready' => ?_
    have hmore : (lookupChunks rest s').1 = .ok (rest.flatten.map s'.view) := ih hrest s' hs' hready'
    rw [hdid.view] at hmore
    rw [Action.bind_apply]
    rcases hr : lookupChunks rest s' with ⟨r, s''⟩
    rw [hr] at hmore
    obtain rfl : r = .ok (rest.flatten.map s.view) := hmore
    rw [List.flatten_cons, List.map_append]
    rfl

theorem putChunks_answers {parts : List (List Entity)}
    (h : ∀ batch ∈ parts, batch.length ≤ max limits.write 1) :
    Answers limits (putChunks parts) fun _ => () := by
  induction parts with
  | nil => exact fun _ _ _ => rfl
  | cons batch rest ih =>
    obtain ⟨hbatch, hrest⟩ := List.forall_mem_cons.mp h
    exact (putCall_answers hbatch).bind (.call .put (Store.put_makes batch) (Staging.put_stages batch))
      fun s s' _ hs' hready' =>
        ih hrest { s' with metrics := s'.metrics.accept batch.length } hs' hready'

theorem deleteChunks_answers {parts : List (List Key)}
    (h : ∀ keys ∈ parts, keys.length ≤ max limits.write 1) :
    Answers limits (deleteChunks parts) fun _ => () := by
  induction parts with
  | nil => exact fun _ _ _ => rfl
  | cons keys rest ih =>
    obtain ⟨hkeys, hrest⟩ := List.forall_mem_cons.mp h
    exact (deleteCall_answers hkeys).bind
      (.call .delete (Store.delete_makes keys) (Staging.delete_stages keys))
      fun _ s' _ hs' hready' => ih hrest s' hs' hready'

variable (limits)

theorem lookup_answers (keys : List Key) :
    Answers limits (lookup limits keys) fun s => keys.map s.view := by
  have h : Answers limits (lookupChunks (chunks limits.read keys)) _ :=
    lookupChunks_answers fun _ => length_le_of_mem_chunks
  rw [flatten_chunks] at h
  exact h

/-- A single key is looked up in a single call, whatever the limits of the handle. -/
theorem lookup_singleton (hs : s.Unfinished) (hcalm : s.store.failures = [])
    (hroom : 1 ≤ s.store.limits.read) (k : Key) : (lookup limits [k] s).1 = .ok [s.view k] := by
  have hchunks : chunks limits.read [k] = [[k]] := by
    rw [chunks, List.take_nil, List.drop_nil, chunks]
  have hcall : (call .lookup (Store.lookup [k]) (Staging.lookup [k]) s).1 = .ok ([k].map s.view) :=
    lookupCall_ok hs hcalm hroom
  rw [lookup, hchunks, lookupChunks, Action.bind_apply]
  rcases hr : call .lookup (Store.lookup [k]) (Staging.lookup [k]) s with ⟨r, s'⟩
  rw [hr] at hcall
  obtain rfl : r = .ok [s.view k] := hcall
  rfl

theorem put_answers (batch : List Entity) : Answers limits (put limits batch) fun _ => () :=
  putChunks_answers fun _ => length_le_of_mem_chunks

theorem delete_answers (keys : List Key) : Answers limits (delete limits keys) fun _ => () :=
  deleteChunks_answers fun _ => length_le_of_mem_chunks

end Session

/-! ## Connections -/

namespace Connection

/-- Whether a connection is open, without an explicit transaction, and on a store that is ready. -/
structure Ready (limits : BatchLimits) (c : Connection) : Prop where
  isOpen : c.closed = false
  idle : c.slot.isActive = false
  store : c.store.Ready limits

section Answers

variable {α : Type} {limits : BatchLimits} {c : Connection} {body : Action Session α}
  {ws : List Write} {answer : Session → α} {a : α}

/-- A transaction of their own does not keep calls from being answered: it is begun and committed. -/
theorem executeAlone_ok (hcalm : c.store.failures = []) (hbody : Session.Performs body ws)
    (hanswer : (body c.begun).1 = .ok a) (operation : OperationKind) (label : String) :
    (executeAlone operation label body c).1 = .ok a := by
  have hbegin : Store.beginTransaction c.store =
      (.ok ⟨∅, false⟩, { c.store with active := c.store.active + 1 }) := by
    rw [Store.beginTransaction, Action.bind_ok (Store.takeFailure_of_nil hcalm .start)]
    rfl
  have hcommitted : (thenCommit body c.begun).1 = .ok a := by
    obtain ⟨⟨done, -, ⟨ht, hdata⟩, -⟩, hunfailed, -⟩ := hbody _ c.begun_unfinished
    have hempty : Transaction.staged ⟨∅, false⟩ = SortedMap.ofList [] := rfl
    rcases hr : body c.begun with ⟨r, s⟩
    rw [hr] at hanswer ht hdata hunfailed
    obtain rfl : r = .ok a := hanswer
    rcases Session.commit_staged ht (Staging.stageAll_finished ..)
        (Staging.staged_stageAll_ofList hempty done) hdata with
      ⟨e, s', -, -, -, hfewer⟩ | ⟨s', hcommit, -, -⟩
    · rw [(hunfailed a rfl).waiting] at hfewer
      rw [show c.begun.store.failures = [] from hcalm] at hfewer
      exact absurd hfewer (Nat.not_lt_zero _)
    · rw [thenCommit, Action.bind_ok hr, Action.bind_ok hcommit]
      rfl
  have hsession : { c with store := { c.store with active := c.store.active + 1 } }.session
      (some ⟨∅, false⟩) = c.begun := rfl
  rw [executeAlone, hbegin]
  dsimp only
  rw [hsession]
  rcases hr : thenCommit body c.begun with ⟨r, s⟩
  rw [hr] at hcommitted
  obtain rfl : r = .ok a := hcommitted
  rfl

/-- An operation whose calls are answered is answered under either policy, if no failure waits. -/
theorem execute_ok (hopen : c.closed = false) (hidle : c.slot.isActive = false)
    (hcalm : c.store.failures = []) (hbody : Session.Performs body ws)
    (hdirect : (body (c.session none)).1 = .ok a) (halone : (body c.begun).1 = .ok a)
    (policy : Policy) (operation : OperationKind) (label : String) :
    ∃ c', execute policy operation label body c = (.ok a, c') ∧ Wrote ws c c' ∧ Unfailed c c' := by
  have hok : (execute policy operation label body c).1 = .ok a := by
    rw [execute_of_inactive hopen hidle]
    split
    · exact executeAlone_ok hcalm hbody halone operation label
    · unfold executeDirectly
      rcases hr : body (c.session none) with ⟨r, s⟩
      rw [hr] at hdirect
      obtain rfl : r = .ok a := hdirect
      rfl
  have hexecute : execute policy operation label body c =
      (.ok a, (execute policy operation label body c).2) := Prod.ext hok rfl
  exact ⟨_, hexecute, wrote_of_execute_ok hbody hidle hexecute⟩

/-- An operation whose calls are answered is answered, and has made its writes, under either policy. -/
theorem execute_answers (hc : c.Ready limits) (hbody : Session.Performs body ws)
    (hanswers : Session.Answers limits body answer) {a : α} (hdirect : answer (c.session none) = a)
    (halone : answer c.begun = a) (policy : Policy) (operation : OperationKind) (label : String) :
    ∃ c', execute policy operation label body c = (.ok a, c') ∧ c'.Ready limits ∧
      Store.SameData (c.store.write ws) c'.store := by
  have hbegun : c.begun.store.Ready limits := ⟨hc.store.failures, hc.store.read, hc.store.write⟩
  obtain ⟨c', hexecute, hwrote, hunfailed⟩ := execute_ok hc.isOpen hc.idle hc.store.failures hbody
    (hdirect ▸ hanswers (c.session none) (.of_none rfl) hc.store)
    (halone ▸ hanswers c.begun c.begun_unfinished hbegun) policy operation label
  have hlimits := hwrote.sameData.limits
  exact ⟨c', hexecute, ⟨hwrote.closed.trans hc.isOpen, hwrote.slot ▸ hc.idle,
    hunfailed.waiting.trans hc.store.failures, hlimits ▸ hc.store.read, hlimits ▸ hc.store.write⟩,
    hwrote.sameData⟩

end Answers

/-! ### Operations -/

/-- A single key is looked up, whatever the policy of the handle. -/
theorem lookup_singleton {c : Connection} (hopen : c.closed = false) (hidle : c.slot.isActive = false)
    (hcalm : c.store.failures = []) (hroom : 1 ≤ c.store.limits.read) (policy : Policy) (k : Key)
    (label : String) : (lookup policy [k] label c).1 = .ok [c.store.find? k] := by
  obtain ⟨c', hlookup, -⟩ := execute_ok hopen hidle hcalm (Session.lookup_performs policy.limits [k])
    (Session.lookup_singleton _ (.of_none rfl) hcalm hroom k)
    (Session.lookup_singleton _ c.begun_unfinished hcalm hroom k) policy .read label
  rw [lookup, hlookup]
  rfl

section Policy

variable {policy : Policy} {c : Connection} (hc : c.Ready policy.limits)

include hc

/-- A look-up finds the committed entities. -/
theorem lookup_answers (keys : List Key) (label : String) :
    ∃ c', lookup policy keys label c = (.ok (keys.map c.store.find?), c') ∧
      c'.Ready policy.limits ∧ Store.SameData c.store c'.store :=
  execute_answers hc (Session.lookup_performs policy.limits keys)
    (Session.lookup_answers policy.limits keys) rfl rfl policy .read label

theorem put_answers (batch : List Entity) (label : String) :
    ∃ c', put policy batch label c = (.ok (), c') ∧ c'.Ready policy.limits ∧
      Store.SameData (c.store.write (Write.ofEntities batch)) c'.store :=
  execute_answers hc (Session.put_performs policy.limits batch)
    (Session.put_answers policy.limits batch) rfl rfl policy .write label

theorem delete_answers (keys : List Key) (label : String) :
    ∃ c', delete policy keys label c = (.ok (), c') ∧ c'.Ready policy.limits ∧
      Store.SameData (c.store.write (Write.ofDeleted keys)) c'.store :=
  execute_answers hc (Session.delete_performs policy.limits keys)
    (Session.delete_answers policy.limits keys) rfl rfl policy .write label

end Policy

end Connection

end DocumentStore
