import DocumentStore.Proofs.Access.Counts
import DocumentStore.Proofs.Access.Scopes
import DocumentStore.Proofs.Store.Interleaving
set_option autoImplicit false

/-!
# The calls that reach the store

A bulk call is made in parts, one data call for each, up to the first that fails.  `Session.made` lists
the data calls that were made and whether they succeeded, and `Connection.made` those of an operation,
wherever they went.  `Tallies` says that the counters of the store and the ones beside it have moved by
such a list.  The one step that counts is a single data call in a transaction that can be used, or in
none; beginning and ending transactions counts nothing.
-/

namespace DocumentStore

/-! ## What leaves a part of the state -/

/-- Whether an action leaves a part of the state as it is, also if it fails. -/
def Action.Leaves {σ α β : Type} (part : σ → β) (x : Action σ α) : Prop :=
  ∀ s, part (x s).2 = part s

namespace Action

variable {σ τ α β γ : Type} {part : σ → γ}

theorem Leaves.bind {x : Action σ α} {f : α → Action σ β} (hx : Leaves part x)
    (hf : ∀ a, Leaves part (f a)) : Leaves part (x >>= f) := by
  intro s
  have hfirst := hx s
  rw [bind_apply]
  rcases hr : x s with ⟨e | a, s'⟩ <;> rw [hr] at hfirst
  · exact hfirst
  · exact (hf a s').trans hfirst

end Action

namespace Store

theorem beginTransaction_leaves : Action.Leaves calls beginTransaction :=
  Action.Leaves.bind (calls_takeFailure .start) fun _ _ => rfl

/-- A transaction that was begun can be used, and holds nothing. -/
theorem eq_of_beginTransaction {s s' : Store} {t : Transaction}
    (h : beginTransaction s = (.ok t, s')) : t = ⟨∅, false⟩ := by
  rw [beginTransaction, Action.bind_apply] at h
  rcases hr : takeFailure .start s with ⟨e | _, s''⟩ <;> rw [hr] at h <;> cases h
  rfl

theorem finished_of_beginTransaction {s s' : Store} {t : Transaction}
    (h : beginTransaction s = (.ok t, s')) : t.finished = false :=
  congrArg (·.finished) (eq_of_beginTransaction h)

theorem calls_release (s : Store) (t : Transaction) : (s.release t).calls = s.calls := by
  unfold release
  split <;> rfl

/-- A call whose effect counts nothing is counted once. -/
theorem calls_admission_bind {α : Type} {f : Unit → Action Store α}
    (hf : ∀ u, Action.Leaves calls (f u)) (kind : CallKind) (count : Nat) (s : Store) :
    ((admission kind count >>= f) s).2.calls = s.calls.bump kind := by
  have hadmission := calls_admission kind count s
  rw [Action.bind_apply]
  rcases hr : admission kind count s with ⟨e | u, s'⟩ <;> rw [hr] at hadmission
  · exact hadmission
  · exact (hf u s').trans hadmission

end Store

namespace Staging

theorem ensureActive_leaves : Action.Leaves (fun g : Staging => g.store.calls) ensureActive := by
  intro g
  unfold ensureActive
  rw [Action.bind_apply, Action.gets]
  dsimp only
  split <;> rfl

theorem onStore_leaves {α : Type} {x : Action Store α} (h : Action.Leaves Store.calls x) :
    Action.Leaves (fun g : Staging => g.store.calls) (onStore x) :=
  fun g => h g.store

theorem finish_leaves : Action.Leaves (fun g : Staging => g.store.calls) (Action.modify finish) :=
  fun g => Store.calls_release g.store g.transaction

theorem commit_leaves : Action.Leaves (fun g : Staging => g.store.calls) commit :=
  ensureActive_leaves.bind fun _ => (onStore_leaves (Store.calls_takeFailure .commit)).bind
    fun _ g => Store.calls_release _ g.transaction

theorem rollback_leaves : Action.Leaves (fun g : Staging => g.store.calls) rollback :=
  (onStore_leaves (Store.calls_takeFailure .rollback)).bind fun _ =>
    ensureActive_leaves.bind fun _ => finish_leaves

end Staging

/-! ## Data calls -/

namespace DataCall

/-- The kind of a call. -/
def kind : DataCall → CallKind
  | .lookup _ => .lookup
  | .put _ => .put
  | .delete _ => .delete
  | .query _ => .query

/-- How many entities the store accepts with the call, if it succeeds. -/
def accepted : DataCall → Nat
  | .put batch => batch.length
  | _ => 0

/-- The calls that a bulk call is split into. -/
def parts (limits : BatchLimits) : DataCall → List DataCall
  | .lookup keys => (chunks limits.read keys).map .lookup
  | .put batch => (chunks limits.write batch).map .put
  | .delete keys => (chunks limits.write keys).map .delete
  | .query q => [.query q]

/-- The call in a session, observed. -/
def onSession (call : DataCall) : Action Session DataAnswer := do
  let answer ← Session.call call.kind call.onStore call.inTransaction
  Action.modify fun s => { s with metrics := s.metrics.accept call.accepted }
  return answer

theorem calls_onStore (call : DataCall) (s : Store) :
    (call.onStore s).2.calls = s.calls.bump call.kind := by
  cases call with
  | lookup keys =>
    rw [onStore, Action.snd_bind_pure, Store.lookup_eq]
    exact Store.calls_admission_bind (fun _ _ => rfl) .lookup _ s
  | put batch =>
    rw [onStore, Action.snd_bind_pure, Store.put_eq]
    exact Store.calls_admission_bind (fun _ _ => rfl) .put _ s
  | delete keys =>
    rw [onStore, Action.snd_bind_pure, Store.delete_eq]
    exact Store.calls_admission_bind (fun _ _ => rfl) .delete _ s
  | query q =>
    rw [onStore, Action.snd_bind_pure]
    exact Store.calls_runQuery q s

/-- In a transaction that can be used a call reaches the store, and is counted there. -/
theorem calls_inTransaction (call : DataCall) {g : Staging} (h : g.transaction.finished = false) :
    (call.inTransaction g).2.store.calls = g.store.calls.bump call.kind := by
  have hadmission (kind : CallKind) (count : Nat) := Store.calls_admission kind count g.store
  cases call with
  | lookup keys =>
    rw [inTransaction, Action.snd_bind_pure, Staging.lookup_unfinished h, kind,
      ← hadmission .lookup keys.length]
    rcases Store.admission .lookup keys.length g.store with ⟨e | _, s⟩ <;> rfl
  | put batch =>
    rw [inTransaction, Action.snd_bind_pure, Staging.put_unfinished h, kind,
      ← hadmission .put batch.length]
    rcases Store.admission .put batch.length g.store with ⟨e | _, s⟩ <;> rfl
  | delete keys =>
    rw [inTransaction, Action.snd_bind_pure, Staging.delete_unfinished h, kind,
      ← hadmission .delete keys.length]
    rcases Store.admission .delete keys.length g.store with ⟨e | _, s⟩ <;> rfl
  | query q =>
    rw [inTransaction, Action.snd_bind_pure, Staging.runQuery_unfinished h]
    exact Store.calls_runQuery q g.store

theorem onSession_performs (call : DataCall) : Session.Performs call.onSession call.writes := by
  have hcall := Session.Performs.call call.kind call.onStore_makes call.inTransaction_stages
  have hall := hcall.bind fun answer => (Session.Performs.modify
    (f := (·.accept call.accepted)) fun _ => rfl).bind fun _ => .pure answer
  rw [List.append_nil, List.append_nil] at hall
  exact hall

end DataCall

/-- A data call that was made, and whether it succeeded. -/
structure CallMade where
  call : DataCall
  succeeded : Bool

namespace CallMade

/-- Whether the call is of a kind. -/
def isOf (kind : CallKind) (made : CallMade) : Bool := kind = made.call.kind

/-- Whether the call is of a kind and failed. -/
def failedOf (kind : CallKind) (made : CallMade) : Bool := made.isOf kind && !made.succeeded

end CallMade

/-! ## Counters -/

/-- Whether the counters of a store, and those beside it, have moved by the calls of a list. -/
structure Tallies (made : List CallMade) (s : Store) (m : Metrics) (s' : Store) (m' : Metrics) :
    Prop where
  calls : ∀ kind, s'.calls.of kind = s.calls.of kind + made.countP (·.isOf kind)
  roundTrips : ∀ kind, m'.roundTrips.of kind = m.roundTrips.of kind + made.countP (·.isOf kind)
  failures : ∀ kind, m'.failures.of kind = m.failures.of kind + made.countP (·.failedOf kind)

namespace Tallies

variable {made more : List CallMade} {s s' s'' : Store} {m m' m'' : Metrics}

/-- What makes no data call moves no counter. -/
theorem none (hcalls : s'.calls = s.calls) (hroundTrips : m'.roundTrips = m.roundTrips)
    (hfailures : m'.failures = m.failures) : Tallies [] s m s' m' :=
  ⟨fun kind => congrArg (·.of kind) hcalls, fun kind => congrArg (·.of kind) hroundTrips,
    fun kind => congrArg (·.of kind) hfailures⟩

theorem append (h : Tallies made s m s' m') (h' : Tallies more s' m' s'' m'') :
    Tallies (made ++ more) s m s'' m'' where
  calls kind := by rw [h'.calls, h.calls, List.countP_append, Nat.add_assoc]
  roundTrips kind := by rw [h'.roundTrips, h.roundTrips, List.countP_append, Nat.add_assoc]
  failures kind := by rw [h'.failures, h.failures, List.countP_append, Nat.add_assoc]

/-- What makes no data call does not matter to the list. -/
theorem andThen (h : Tallies made s m s' m') (h' : Tallies [] s' m' s'' m'') :
    Tallies made s m s'' m'' := by
  have hall := h.append h'
  rw [List.append_nil] at hall
  exact hall

theorem record (committed : Bool) (hcalls : s'.calls = s.calls) :
    Tallies [] s m s' (m.record committed) := by
  cases committed <;> exact none hcalls rfl rfl

/-- A call that is counted by the store and observed. -/
theorem observe (call : DataCall) (succeeded : Bool) (hcalls : s'.calls = s.calls.bump call.kind) :
    Tallies [⟨call, succeeded⟩] s m s' (m.observe call.kind succeeded) where
  calls kind := by
    rw [hcalls, CallCounts.of_bump, List.countP_singleton, CallMade.isOf]
    simp only [decide_eq_true_eq]
  roundTrips kind := by
    rw [Metrics.observe, CallCounts.of_bump, List.countP_singleton, CallMade.isOf]
    simp only [decide_eq_true_eq]
  failures kind := by
    rw [Metrics.observe, List.countP_singleton, CallMade.failedOf, CallMade.isOf]
    cases succeeded with
    | true => simp
    | false => simp [CallCounts.of_bump]

end Tallies

/-! ## Sessions -/

namespace Session

/-- Calls made one after another, up to the first that fails. -/
def makeAll : List DataCall → Action Session Unit
  | [] => pure ()
  | call :: rest => do
    let _ ← call.onSession
    makeAll rest

/-- The calls that were then made. -/
def made : List DataCall → Session → List CallMade
  | [], _ => []
  | call :: rest, s =>
    match call.onSession s with
    | (.ok _, s') => ⟨call, true⟩ :: made rest s'
    | (.error _, _) => [⟨call, false⟩]

theorem call_bind_pure {α β : Type} (kind : CallKind) (direct : Action Store α)
    (staged : Action Staging α) (f : α → β) :
    call kind (direct >>= fun a => pure (f a)) (staged >>= fun a => pure (f a)) =
      call kind direct staged >>= fun a => pure (f a) := by
  funext s
  rw [Action.bind_apply]
  unfold call
  cases s.transaction with
  | none =>
    simp only [Action.bind_apply]
    rcases direct s.store with ⟨e | a, store⟩ <;> rfl
  | some t =>
    simp only [Action.bind_apply]
    rcases staged ⟨s.store, t⟩ with ⟨e | a, g⟩ <;> rfl

theorem call_tallies (c : DataCall) {s : Session} (hs : s.Unfinished) :
    Tallies [⟨c, (call c.kind c.onStore c.inTransaction s).1.isOk⟩] s.store s.metrics
      (call c.kind c.onStore c.inTransaction s).2.store
      (call c.kind c.onStore c.inTransaction s).2.metrics := by
  unfold call
  cases ht : s.transaction with
  | none => exact .observe c _ (c.calls_onStore s.store)
  | some t => exact .observe c _ (c.calls_inTransaction (g := ⟨s.store, t⟩) (hs t ht))

/-- The one step that counts. -/
theorem onSession_tallies (c : DataCall) {s : Session} (hs : s.Unfinished) :
    Tallies [⟨c, (c.onSession s).1.isOk⟩] s.store s.metrics (c.onSession s).2.store
      (c.onSession s).2.metrics := by
  have hcall := call_tallies c hs
  rw [DataCall.onSession, Action.bind_apply]
  rcases hr : call c.kind c.onStore c.inTransaction s with ⟨e | a, s'⟩ <;> rw [hr] at hcall
  · exact hcall
  · exact hcall.andThen (.none rfl rfl rfl)

/-- Calls count as those that were made, one after another. -/
theorem makeAll_tallies (calls : List DataCall) {s : Session} (hs : s.Unfinished) :
    Tallies (made calls s) s.store s.metrics (makeAll calls s).2.store (makeAll calls s).2.metrics := by
  induction calls generalizing s with
  | nil => exact .none rfl rfl rfl
  | cons c rest ih =>
    have hfirst := onSession_tallies c hs
    obtain ⟨done, -, hdid, -⟩ := (c.onSession_performs s hs).effect
    have hs' := hdid.unfinished hs
    rw [makeAll, made, Action.bind_apply]
    rcases hr : c.onSession s with ⟨e | a, s'⟩ <;> rw [hr] at hfirst hs'
    · exact hfirst
    · exact hfirst.append (ih hs')

/-! ### Bulk calls -/

/-- A data call is a call of the store, or of the transaction, with its answer put in another form. -/
theorem onSession_apply {α : Type} (c : DataCall) {direct : Action Store α}
    {staged : Action Staging α} {f : α → DataAnswer}
    (hdirect : c.onStore = direct >>= fun a => pure (f a))
    (hstaged : c.inTransaction = staged >>= fun a => pure (f a)) (s : Session) :
    c.onSession s =
      match call c.kind direct staged s with
      | (.ok a, s) => (.ok (f a), { s with metrics := s.metrics.accept c.accepted })
      | (.error e, s) => (.error e, s) := by
  rw [DataCall.onSession, hdirect, hstaged, call_bind_pure, Action.bind_apply, Action.bind_apply]
  rcases call c.kind direct staged s with ⟨e | a, s'⟩ <;> rfl

/-- What makes a call for each part, and stops at the first that fails, leaves what the calls leave. -/
theorem snd_eq_makeAll {α β : Type} {f : List α → Action Session β} {c : α → DataCall}
    (hnil : ∀ s, (f [] s).2 = s)
    (hcons : ∀ part rest s, (f (part :: rest) s).2 =
      match (c part).onSession s with
      | (.ok _, s) => (f rest s).2
      | (.error _, s) => s) (parts : List α) (s : Session) :
    (f parts s).2 = (makeAll (parts.map c) s).2 := by
  induction parts generalizing s with
  | nil => exact hnil s
  | cons part rest ih =>
    rw [hcons, List.map_cons, makeAll, Action.bind_apply]
    rcases (c part).onSession s with ⟨e | a, s'⟩
    · rfl
    · exact ih s'

theorem lookup_eq_makeAll (limits : BatchLimits) (keys : List Key) (s : Session) :
    (lookup limits keys s).2 = (makeAll ((DataCall.lookup keys).parts limits) s).2 := by
  refine snd_eq_makeAll (f := lookupChunks) (fun _ => rfl) (fun part rest s => ?_) _ s
  rw [onSession_apply (.lookup part) rfl rfl, lookupChunks, Action.bind_apply, DataCall.kind]
  rcases call .lookup (Store.lookup part) (Staging.lookup part) s with ⟨e | found, s'⟩
  · rfl
  · exact Action.snd_bind_pure _ _ s'

theorem put_eq_makeAll (limits : BatchLimits) (batch : List Entity) (s : Session) :
    (put limits batch s).2 = (makeAll ((DataCall.put batch).parts limits) s).2 := by
  refine snd_eq_makeAll (f := putChunks) (fun _ => rfl) (fun part rest s => ?_) _ s
  rw [onSession_apply (.put part) rfl rfl, putChunks, Action.bind_apply, DataCall.kind]
  rcases call .put (Store.put part) (Staging.put part) s with ⟨e | _, s'⟩ <;> rfl

theorem delete_eq_makeAll (limits : BatchLimits) (keys : List Key) (s : Session) :
    (delete limits keys s).2 = (makeAll ((DataCall.delete keys).parts limits) s).2 := by
  refine snd_eq_makeAll (f := deleteChunks) (fun _ => rfl) (fun part rest s => ?_) _ s
  rw [onSession_apply (.delete part) rfl rfl, deleteChunks, Action.bind_apply, DataCall.kind]
  rcases call .delete (Store.delete part) (Staging.delete part) s with ⟨e | _, s'⟩ <;> rfl

theorem runQuery_eq_makeAll (limits : BatchLimits) (q : EntityQuery) (s : Session) :
    (runQuery q s).2 = (makeAll ((DataCall.query q).parts limits) s).2 := by
  rw [DataCall.parts, makeAll, Action.bind_apply, onSession_apply (.query q) rfl rfl, DataCall.kind,
    runQuery]
  rcases call .query (Store.runQuery q) (Staging.runQuery q) s with ⟨e | page, s'⟩ <;> rfl

end Session

/-! ## Connections -/

namespace Connection

/-- The data calls that were made by an operation whose calls in a session are given. -/
def made (policy : Policy) (calls : List DataCall) (c : Connection) : List CallMade :=
  if c.closed then []
  else
    match c.slot with
    | .active t => Session.made calls (c.session (some t))
    | _ =>
      if policy.transactional then
        match Store.beginTransaction c.store with
        | (.error _, _) => []
        | (.ok t, store) => Session.made calls ({ c with store }.session (some t))
      else Session.made calls (c.session none)

theorem onTransaction_tallies {x : Action Staging Unit}
    (hx : Action.Leaves (fun g : Staging => g.store.calls) x) (s : Session) :
    Tallies [] s.store s.metrics (Session.onTransaction x s).2.store
      (Session.onTransaction x s).2.metrics := by
  unfold Session.onTransaction
  split
  · exact .none rfl rfl rfl
  · next t _ => exact .none (hx ⟨s.store, t⟩) rfl rfl

theorem releaseTransaction_tallies (s : Session) :
    Tallies [] s.store s.metrics s.releaseTransaction.store s.releaseTransaction.metrics := by
  unfold Session.releaseTransaction
  split
  · exact .none rfl rfl rfl
  · exact .none (Store.calls_release ..) rfl rfl

section Execute

variable {α : Type} {body : Action Session α} {calls : List DataCall} {c : Connection}
  (hbody : ∀ s, (body s).2 = (Session.makeAll calls s).2)

include hbody

theorem body_tallies {s : Session} (hs : s.Unfinished) :
    Tallies (Session.made calls s) s.store s.metrics (body s).2.store (body s).2.metrics := by
  rw [hbody]
  exact Session.makeAll_tallies calls hs

theorem thenCommit_tallies {s : Session} (hs : s.Unfinished) :
    Tallies (Session.made calls s) s.store s.metrics (thenCommit body s).2.store
      (thenCommit body s).2.metrics := by
  have hmade := body_tallies hbody hs
  rw [thenCommit, Action.bind_apply]
  rcases hb : body s with ⟨e | a, s'⟩ <;> rw [hb] at hmade
  · exact hmade
  · dsimp only
    rw [Action.snd_bind_pure]
    exact hmade.andThen (onTransaction_tallies Staging.commit_leaves s')

/-- Of an operation with a transaction of its own the calls of its body count, and no others. -/
theorem executeAlone_tallies (operation : OperationKind) (label : String) (c : Connection) :
    Tallies
      (match Store.beginTransaction c.store with
        | (.error _, _) => []
        | (.ok t, store) => Session.made calls ({ c with store }.session (some t)))
      c.store c.metrics (executeAlone operation label body c).2.store
      (executeAlone operation label body c).2.metrics := by
  have hbegin := Store.beginTransaction_leaves c.store
  unfold executeAlone
  rcases hr : Store.beginTransaction c.store with ⟨e | t, store⟩ <;> rw [hr] at hbegin
  · exact .none hbegin rfl rfl
  · have hunfinished : ({ c with store }.session (some t)).Unfinished :=
      .of_some rfl (Store.finished_of_beginTransaction hr)
    have hbegun : Tallies [] c.store c.metrics store c.metrics := .none hbegin rfl rfl
    have hcommitted := hbegun.append (thenCommit_tallies hbody hunfinished)
    dsimp only
    split
    · next a s hc =>
      rw [hc] at hcommitted
      exact (hcommitted.andThen (releaseTransaction_tallies s)).andThen (.record true rfl)
    · next e s hc =>
      rw [hc] at hcommitted
      have hback := hcommitted.andThen (onTransaction_tallies Staging.rollback_leaves s)
      exact (hback.andThen (releaseTransaction_tallies _)).andThen (.record false rfl)

/-- An operation counts as the calls that were made. -/
theorem execute_tallies (husable : c.slot.Usable) (policy : Policy) (operation : OperationKind)
    (label : String) :
    Tallies (c.made policy calls) c.store c.metrics (execute policy operation label body c).2.store
      (execute policy operation label body c).2.metrics := by
  unfold execute made
  split
  · exact .none rfl rfl rfl
  · cases ht : c.slot with
    | active t =>
      exact body_tallies hbody (.of_some rfl (husable t ht))
    | idle | committed | rolledBack =>
      dsimp only
      split
      · exact executeAlone_tallies hbody operation label c
      · exact body_tallies hbody (.of_none rfl)

end Execute

/-! ### Chains -/

/-- The connection after a bulk call under a policy. -/
def afterCall (policy : Policy) (label : String) : DataCall → Connection → Connection
  | .lookup keys, c => (lookup policy keys label c).2
  | .put batch, c => (put policy batch label c).2
  | .delete keys, c => (delete policy keys label c).2
  | .query q, c => (runQuery policy q c).2

/-- Whether bulk calls under a policy lead from a connection to another, with the data calls that they
made on the way. -/
inductive LoggedChain (policy : Policy) (c : Connection) : List CallMade → Connection → Prop where
  | refl : LoggedChain policy c [] c
  | bulk {log : List CallMade} {c' : Connection} (call : DataCall) (label : String)
    (h : LoggedChain policy c log c') :
    LoggedChain policy c (log ++ c'.made policy (call.parts policy.limits))
      (c'.afterCall policy label call)

variable {policy : Policy} {c c' : Connection}

theorem afterCall_tallies (husable : c.slot.Usable) (policy : Policy) (label : String) (call : DataCall) :
    Tallies (c.made policy (call.parts policy.limits)) c.store c.metrics
      (c.afterCall policy label call).store (c.afterCall policy label call).metrics := by
  cases call with
  | lookup keys =>
    exact execute_tallies (Session.lookup_eq_makeAll policy.limits keys) husable policy .read label
  | put batch =>
    exact execute_tallies (Session.put_eq_makeAll policy.limits batch) husable policy .write label
  | delete keys =>
    exact execute_tallies (Session.delete_eq_makeAll policy.limits keys) husable policy .write label
  | query q =>
    exact execute_tallies (Session.runQuery_eq_makeAll policy.limits q) husable policy .read q.describe

/-- Every chain has the list of its data calls. -/
theorem Chain.exists_logged {allowed : Write → Prop} (h : Chain policy allowed c c') :
    ∃ log, LoggedChain policy c log c' := by
  induction h with
  | refl => exact ⟨[], .refl⟩
  | lookup keys label _ ih =>
    obtain ⟨log, ih⟩ := ih
    exact ⟨_, ih.bulk (.lookup keys) label⟩
  | query q _ ih =>
    obtain ⟨log, ih⟩ := ih
    exact ⟨_, ih.bulk (.query q) ""⟩
  | put batch label _ _ ih =>
    obtain ⟨log, ih⟩ := ih
    exact ⟨_, ih.bulk (.put batch) label⟩
  | delete keys label _ _ ih =>
    obtain ⟨log, ih⟩ := ih
    exact ⟨_, ih.bulk (.delete keys) label⟩

theorem LoggedChain.chain {log : List CallMade} (h : LoggedChain policy c log c') :
    Chain policy (fun _ => True) c c' := by
  induction h with
  | refl => exact .refl
  | bulk call label _ ih =>
    cases call with
    | lookup keys => exact ih.lookup keys label
    | put batch => exact ih.put batch label fun _ _ => trivial
    | delete keys => exact ih.delete keys label fun _ _ => trivial
    | query q => exact ih.query q

/-- A chain counts as the data calls that it made. -/
theorem LoggedChain.tallies {log : List CallMade} (h : LoggedChain policy c log c')
    (husable : c.slot.Usable) : Tallies log c.store c.metrics c'.store c'.metrics := by
  induction h with
  | refl => exact .none rfl rfl rfl
  | bulk call label h ih =>
    exact ih.append (afterCall_tallies (h.chain.keepsScope husable).usable policy label call)

/-! ### Explicit transactions -/

theorem beginScope_tallies (c : Connection) :
    Tallies [] c.store c.metrics (beginScope c).2.store (beginScope c).2.metrics := by
  have hbegin := Store.beginTransaction_leaves c.store
  unfold beginScope
  split
  · exact .none rfl rfl rfl
  · split
    · exact .none rfl rfl rfl
    · rcases hr : Store.beginTransaction c.store with ⟨e | t, store⟩ <;> rw [hr] at hbegin <;>
        exact .none hbegin rfl rfl

theorem commitScope_tallies (c : Connection) :
    Tallies [] c.store c.metrics (commitScope c).2.store (commitScope c).2.metrics := by
  unfold commitScope
  cases c.slot with
  | active t =>
    have hcommit := Staging.commit_leaves ⟨c.store, t⟩
    dsimp only
    rcases hr : Staging.commit ⟨c.store, t⟩ with ⟨e | _, g⟩ <;> rw [hr] at hcommit
    · have hback := Staging.rollback_leaves g
      exact .record false ((Store.calls_release ..).trans (hback.trans hcommit))
    · exact .record true ((Store.calls_release ..).trans hcommit)
  | idle | committed | rolledBack => exact .none rfl rfl rfl

theorem rollbackScope_tallies (c : Connection) :
    Tallies [] c.store c.metrics (rollbackScope c).2.store (rollbackScope c).2.metrics := by
  unfold rollbackScope
  cases c.slot with
  | active t =>
    have hback := Staging.rollback_leaves ⟨c.store, t⟩
    exact .record false ((Store.calls_release ..).trans hback)
  | idle | committed | rolledBack => exact .none rfl rfl rfl

theorem dropScope_tallies (c : Connection) :
    Tallies [] c.store c.metrics c.dropScope.store c.dropScope.metrics := by
  unfold dropScope
  split
  · exact .record false (Store.calls_release ..)
  · exact .none rfl rfl rfl

end Connection

end DocumentStore
