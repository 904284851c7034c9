import DocumentStore.Proofs.Access.Atomic
import DocumentStore.Proofs.Access.Refusals
import DocumentStore.Proofs.Access.Serving
import DocumentStore.Proofs.Access.Simulation
import DocumentStore.Proofs.Store.Agreement
set_option autoImplicit false

/-!
# Calls with and without a transaction of their own

On a store without failures to come, an operation's calls do the same whether they go straight to the
store or to a transaction of their own that is committed or rolled back at the end: the same answers,
the same documents and as many calls of each kind.  A failure is reported as that of the operation
under the transactional policy, and as it is otherwise.
-/

namespace DocumentStore

open DocumentStore.Action (Respects)

/-- Whether a failure is reported as it is, or as that of an operation. -/
def StorageError.ReportedAs (e e' : StorageError) : Prop :=
  e' = e ∨ ∃ operation, e' = .transaction operation e

/-! ## Stores -/

/-- Whether two stores let in the same calls, and have counted as many of each kind. -/
structure Store.Beside (s s' : Store) : Prop where
  limits : s.limits = s'.limits
  pageLimit : s.pageLimit = s'.pageLimit
  calls : s.calls = s'.calls
  calm : s.failures = []
  calm' : s'.failures = []

namespace Store

theorem Beside.eq {s s' : Store} (h : Beside s s') (hdocuments : s.documents = s'.documents)
    (hactive : s.active = s'.active) : s = s' := by
  obtain ⟨hlimits, hpageLimit, hcalls, hcalm, hcalm'⟩ := h
  have hfailures := hcalm.trans hcalm'.symm
  cases s
  cases s'
  simp_all

theorem admission_beside (kind : CallKind) (count : Nat) : Respects Beside (admission kind count) := by
  intro s s' h
  have hcounted : Beside { s with failures := [], calls := s.calls.bump kind }
      { s' with failures := [], calls := s'.calls.bump kind } :=
    ⟨h.limits, h.pageLimit, congrArg (·.bump kind) h.calls, rfl, rfl⟩
  rw [admission_apply, admission_apply, h.calm, h.calm', itemLimit?_congr h.limits kind]
  dsimp only [List.find?_nil]
  cases s'.itemLimit? kind with
  | none => exact ⟨rfl, hcounted⟩
  | some limit =>
    dsimp only
    split
    · exact ⟨rfl, hcounted⟩
    · exact ⟨rfl, hcounted⟩

/-- Whether two such stores also hold the same documents. -/
structure Level (s s' : Store) : Prop extends Beside s s' where
  documents : s.documents = s'.documents

theorem admission_level (kind : CallKind) (count : Nat) : Respects Level (admission kind count) := by
  intro s s' h
  obtain ⟨hanswer, hstate⟩ := admission_beside kind count s s' h.toBeside
  refine ⟨hanswer, hstate, ?_⟩
  rw [(sameData_admission kind count s).documents, (sameData_admission kind count s').documents]
  exact h.documents

theorem lookup_level (keys : List Key) : Respects Level (lookup keys) := by
  rw [lookup_eq]
  refine (admission_level _ _).bind fun _ => .gets fun s s' h => List.map_congr_left fun k _ => ?_
  rw [find?, find?, h.documents]

theorem runQuery_level (q : EntityQuery) : Respects Level (runQuery q) := by
  rw [runQuery_eq]
  refine (admission_level _ _).bind fun _ => (Respects.ofOutcome _).bind fun offset =>
    .gets fun s s' h => ?_
  simp only [page, results_congr h.documents, h.pageLimit]

end Store

/-! ## Sessions -/

/-- A session of calls on the store beside one of calls in a transaction. -/
structure Session.Beside (s s' : Session) : Prop where
  direct : s.transaction = none
  staged : ∃ t, s'.transaction = some t ∧ t.finished = false
  store : s.store.Beside s'.store

/-- A session of calls on the store beside one in a transaction that has staged nothing. -/
structure Session.Fresh (s s' : Session) : Prop extends Session.Beside s s' where
  empty : s'.transaction = some ⟨∅, false⟩
  documents : s.store.documents = s'.store.documents

namespace Session

theorem Writes.beside {kind : CallKind} {count : Nat} {ws : List Write} {direct : Action Store Unit}
    {staged : Action Staging Unit} (h : Writes kind count ws direct staged) :
    Respects Beside (call kind direct staged) := by
  intro s s' hs
  obtain ⟨t, ht, hfinished⟩ := hs.staged
  obtain ⟨r, store, store', hr, hr', hstore⟩ :=
    (Store.admission_beside kind count _ _ hs.store).exists_eq
  unfold call
  rw [hs.direct, ht]
  dsimp only
  rw [h.onStore, h.inTransaction ⟨s'.store, t⟩ hfinished, hr, hr']
  cases r with
  | error e => exact ⟨rfl, rfl, ⟨t, rfl, hfinished⟩, hstore⟩
  | ok _ =>
    refine ⟨rfl, rfl, ⟨_, rfl, (Staging.stageAll_finished ..).trans hfinished⟩, ?_⟩
    exact ⟨hstore.limits, hstore.pageLimit, hstore.calls, hstore.calm, hstore.calm'⟩

theorem put_beside (limits : BatchLimits) (batch : List Entity) :
    Respects Beside (put limits batch) := by
  rw [put, putChunks_eq_forM]
  induction chunks limits.write batch with
  | nil => exact .pure ()
  | cons part rest ih =>
    rw [List.forM_cons]
    exact ((put_writes part).beside.bind fun _ =>
      .modify (f := fun s => { s with metrics := s.metrics.accept part.length })
        fun _ _ h => ⟨h.direct, h.staged, h.store⟩).bind fun _ => ih

theorem delete_beside (limits : BatchLimits) (keys : List Key) :
    Respects Beside (delete limits keys) := by
  rw [delete, deleteChunks_eq_forM]
  induction chunks limits.write keys with
  | nil => exact .pure ()
  | cons part rest ih =>
    rw [List.forM_cons]
    exact (delete_writes part).beside.bind fun _ => ih

/-- Calls that do the same on the store and in a transaction that has staged nothing. -/
theorem call_fresh {α : Type} {kind : CallKind} {direct : Action Store α} {staged : Action Staging α}
    (hdirect : Respects Store.Level direct)
    (hstaged : ∀ store, staged ⟨store, ⟨∅, false⟩⟩ =
      ((direct store).1, ⟨(direct store).2, ⟨∅, false⟩⟩)) :
    Respects Fresh (call kind direct staged) := by
  intro s s' hs
  obtain ⟨r, store, store', hr, hr', hstore⟩ :=
    (hdirect s.store s'.store ⟨hs.store, hs.documents⟩).exists_eq
  unfold call
  rw [hs.direct, hs.empty]
  dsimp only
  rw [hstaged, hr, hr']
  exact ⟨rfl, ⟨rfl, ⟨_, rfl, rfl⟩, hstore.toBeside⟩, rfl, hstore.documents⟩

theorem lookupCall_fresh (keys : List Key) :
    Respects Fresh (call .lookup (Store.lookup keys) (Staging.lookup keys)) := by
  refine call_fresh (Store.lookup_level keys) fun store => ?_
  rw [Staging.lookup_unfinished (g := ⟨store, ⟨∅, false⟩⟩) rfl, Store.lookup_eq, Action.bind_apply]
  rcases Store.admission .lookup keys.length store with ⟨e | _, store'⟩
  · rfl
  · rfl

theorem lookup_fresh (limits : BatchLimits) (keys : List Key) :
    Respects Fresh (lookup limits keys) := by
  rw [lookup]
  induction chunks limits.read keys with
  | nil => exact .pure []
  | cons part rest ih => exact (lookupCall_fresh part).bind fun _ => ih.bind fun _ => .pure _

theorem runQuery_fresh (q : EntityQuery) : Respects Fresh (runQuery q) :=
  call_fresh (Store.runQuery_level q) fun store =>
    Staging.runQuery_unfinished (g := ⟨store, ⟨∅, false⟩⟩) rfl q

/-! ## Ends of transactions -/

section Ends

variable {s : Session} {t : Transaction} (ht : s.transaction = some t) (hfinished : t.finished = false)
  (hcalm : s.store.failures = [])

include ht hfinished hcalm

theorem commit_calm :
    onTransaction Staging.commit s =
      (.ok (), { s with
        store := { s.store with
          documents := Staging.applyStaged s.store.documents t
          active := s.store.active - 1 }
        transaction := some ⟨∅, true⟩ }) := by
  simp only [onTransaction, ht, Staging.commit_unfinished (g := ⟨s.store, t⟩) hfinished,
    Store.takeFailure_of_nil hcalm, Staging.finish, Store.release_unfinished _ hfinished]

theorem rollback_calm :
    onTransaction Staging.rollback s =
      (.ok (), { s with
        store := { s.store with active := s.store.active - 1 }
        transaction := some ⟨∅, true⟩ }) := by
  simp only [onTransaction, ht, Staging.rollback_unfinished (g := ⟨s.store, t⟩) hfinished,
    Store.takeFailure_of_nil hcalm, Staging.finish, Store.release_unfinished _ hfinished]

end Ends

/-- Calls that make writes, leave the data as it was if they fail, and do the same on the store and in
a transaction. -/
structure Alternates {α : Type} (body : Action Session α) (ws : List Write) : Prop where
  performs : Performs body ws
  refused : ∀ s e, s.Unfinished → (body s).1 = .error e → Did [] s (body s).2
  beside : ∀ s s', Fresh s s' → Alike Beside (body s) (body s')

theorem Refused.did {kind : CallKind} {s s' : Session} (h : s.Refused kind s') : Did [] s s' := by
  unfold Did
  cases ht : s.transaction with
  | none => exact ⟨h.transaction.trans ht, h.sameData⟩
  | some t => exact ⟨h.transaction.trans ht, h.sameData⟩

/-- What alternating calls have done: their writes if they answered, and nothing if they failed. -/
theorem Alternates.did {α : Type} {body : Action Session α} {ws : List Write} (h : Alternates body ws)
    {s s' : Session} (hs : s.Unfinished) {r : Outcome α} (hr : body s = (r, s')) :
    Did (Write.onSuccess r ws) s s' := by
  cases r with
  | error e =>
    have hdid := h.refused s e hs (congrArg Prod.fst hr)
    rwa [hr] at hdid
  | ok a =>
    obtain ⟨done, -, hdid, hdone⟩ := (h.performs s hs).effect
    rw [hr] at hdid hdone
    rwa [hdone a rfl] at hdid

/-- Calls that only read. -/
theorem Performs.alternates {α : Type} {body : Action Session α} (h : Performs body [])
    (hfresh : Respects Fresh body) : Alternates body [] where
  performs := h
  refused s e hs _ := by
    obtain ⟨done, hamong, hdid, -⟩ := (h s hs).effect
    rwa [List.prefix_nil.mp hamong] at hdid
  beside s s' hs := ⟨(hfresh s s' hs).answer, (hfresh s s' hs).state.toBeside⟩

theorem put_alternates (limits : BatchLimits) (batch : List Entity) :
    Alternates (put limits batch) (Write.ofEntities batch) where
  performs := put_performs limits batch
  refused _ _ _ he := (put_refused (Prod.ext he rfl)).did
  beside s s' hs := put_beside limits batch s s' hs.toBeside

theorem delete_alternates (limits : BatchLimits) (keys : List Key) :
    Alternates (delete limits keys) (Write.ofDeleted keys) where
  performs := delete_performs limits keys
  refused _ _ _ he := (delete_refused (Prod.ext he rfl)).did
  beside s s' hs := delete_beside limits keys s s' hs.toBeside

end Session

/-! ## Connections -/

namespace Connection

variable {α : Type} {body : Action Session α} {ws : List Write}

/-- Whether two connections are on the same store, which has no failure to come, and neither has an
explicit transaction. -/
structure Twin (c c' : Connection) : Prop where
  store : c.store = c'.store
  calm : c.store.failures = []
  closed : c.closed = c'.closed
  idle : c.slot.isActive = false
  idle' : c'.slot.isActive = false

/-- Calls on the store do the same as calls in a transaction of their own. -/
theorem executeAlone_twin (hbody : Session.Alternates body ws) (operation : OperationKind)
    (label : String) :
    Action.Matches Twin StorageError.ReportedAs Eq (executeDirectly label body)
      (executeAlone operation label body) := by
  rintro ⟨store, metrics, closed, slot⟩ ⟨store', metrics', closed', slot'⟩ h
  obtain rfl : store = store' := h.store
  have hcalm : store.failures = [] := h.calm
  have hbegin : Store.beginTransaction store =
      (.ok ⟨∅, false⟩, { store with active := store.active + 1 }) := by
    rw [Store.beginTransaction, Action.bind_ok (Store.takeFailure_of_nil hcalm .start)]
    rfl
  let direct : Session := ⟨store, none, metrics⟩
  let staged : Session := ⟨{ store with active := store.active + 1 }, some ⟨∅, false⟩, metrics'⟩
  have hfresh : Session.Fresh direct staged :=
    ⟨⟨rfl, ⟨_, rfl, rfl⟩, rfl, rfl, rfl, hcalm, hcalm⟩, rfl, rfl⟩
  have hunfinished : direct.Unfinished := fun t ht => by cases ht
  have hunfinished' : staged.Unfinished := fun t ht => by
    obtain rfl := Option.some.inj ht
    rfl
  obtain ⟨r, s, s', hr, hr', hbeside⟩ := (hbody.beside _ _ hfresh).exists_eq
  obtain ⟨-, hdata⟩ := hbody.did hunfinished hr
  obtain ⟨ht, hdata'⟩ := hbody.did hunfinished' hr'
  have hfinished : (Staging.stageAll ⟨∅, false⟩ (Write.onSuccess r ws)).finished = false :=
    Staging.stageAll_finished ..
  have hactive : s.store.active = s'.store.active - 1 := by
    rw [hdata.active, hdata'.active]
    rfl
  have hcalm' := hbeside.store.calm'
  unfold executeDirectly executeAlone
  dsimp only [session]
  rw [show body ⟨store, none, metrics⟩ = _ from hr, hbegin]
  dsimp only [thenCommit]
  cases r with
  | error e =>
    rw [Action.bind_error hr']
    dsimp only
    rw [Session.rollback_calm ht hfinished hcalm']
    refine ⟨.error (.inr ⟨operation, rfl⟩), ?_, hbeside.store.calm, h.closed, h.idle, h.idle'⟩
    refine Store.Beside.eq ⟨hbeside.store.limits, hbeside.store.pageLimit, hbeside.store.calls,
      hbeside.store.calm, hcalm'⟩ ?_ hactive
    exact hdata.documents.trans hdata'.documents.symm
  | ok a =>
    rw [Action.bind_ok hr', Action.bind_ok (Session.commit_calm ht hfinished hcalm')]
    refine ⟨.ok rfl, ?_, hbeside.store.calm, h.closed, h.idle, h.idle'⟩
    refine Store.Beside.eq ⟨hbeside.store.limits, hbeside.store.pageLimit, hbeside.store.calls,
      hbeside.store.calm, hcalm'⟩ ?_ hactive
    have hempty : Transaction.staged ⟨∅, false⟩ = SortedMap.ofList [] := rfl
    exact hdata.documents.trans (((Staging.applyStaged_eq_applyAll
      (Staging.staged_stageAll_ofList hempty ws) _).trans
        (congrArg (Write.applyAll · ws) hdata'.documents)).symm)

/-- The calls of an operation, without the transactional policy and with it. -/
theorem execute_twin (hbody : Session.Alternates body ws) {policy policy' : Policy}
    (hdirect : policy.transactional = false) (hown : policy'.transactional = true)
    (operation : OperationKind) (label : String) :
    Action.Matches Twin StorageError.ReportedAs Eq (execute policy operation label body)
      (execute policy' operation label body) := by
  intro c c' h
  cases hclosed : c.closed with
  | true =>
    rw [execute, execute, if_pos hclosed, if_pos (h.closed ▸ hclosed)]
    exact ⟨.error (.inl rfl), h⟩
  | false =>
    rw [execute_of_inactive hclosed h.idle, execute_of_inactive (h.closed ▸ hclosed) h.idle',
      if_neg (by simp [hdirect]), if_pos hown]
    exact executeAlone_twin hbody operation label c c' h

/-- Every call has the same outcome without the transactional policy and with it. -/
theorem twin_simulation (limits : BatchLimits) :
    Simulation Twin StorageError.ReportedAs ⟨limits, false⟩ ⟨limits, true⟩ where
  refl _ := .inl rfl
  size h := by rw [h.store]
  lookup keys label := execute_twin ((Session.lookup_performs limits keys).alternates
    (Session.lookup_fresh limits keys)) rfl rfl .read label
  put batch label := execute_twin (Session.put_alternates limits batch) rfl rfl .write label
  delete keys label := execute_twin (Session.delete_alternates limits keys) rfl rfl .write label
  runQuery q := execute_twin ((Session.runQuery_performs q).alternates
    (Session.runQuery_fresh q)) rfl rfl .read q.describe

end Connection

end DocumentStore
