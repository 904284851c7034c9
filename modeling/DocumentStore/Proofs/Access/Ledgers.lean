import DocumentStore.Proofs.Access.Courses
set_option autoImplicit false

/-!
# What became of calls and transactions

A ledger says what the store did for a connection, as its answers tell: a transaction was begun; calls
took effect at once; a transaction was committed, or lost, with the calls that it held.  `Accounts` says
that the documents are what the ledger makes of them, and that the counters beside the store have moved
as the ledger says.  The calls that an open transaction holds are carried along beside the ledger.
-/

namespace DocumentStore

/-! ## Ledgers -/

/-- Something that was done in the store. -/
inductive LedgerEntry where
  /-- A transaction was begun. -/
  | begun
  /-- Calls were made without a transaction. -/
  | direct (calls : List DataCall)
  /-- A transaction that held these calls was committed. -/
  | committed (calls : List DataCall)
  /-- A transaction that held these calls ended without being committed. -/
  | lost (calls : List DataCall)
  /-- Other users of the store have left it with these documents. -/
  | others (documents : SortedMap Key Properties)

namespace LedgerEntry

/-- Whether a transaction was begun. -/
def isBegun : LedgerEntry → Bool
  | .begun => true
  | _ => false

/-- Whether a transaction was committed, so that its writes were applied. -/
def isCommitted : LedgerEntry → Bool
  | .committed _ => true
  | _ => false

/-- Whether a transaction ended otherwise. -/
def isLost : LedgerEntry → Bool
  | .lost _ => true
  | _ => false

/-- The documents after it. -/
def apply (documents : SortedMap Key Properties) : LedgerEntry → SortedMap Key Properties
  | .direct calls | .committed calls => Write.applyAll documents (calls.flatMap DataCall.writes)
  | .others documents' => documents'
  | .begun | .lost _ => documents

/-- How many entities were put by calls that took effect with it. -/
def applied : LedgerEntry → Nat
  | .direct calls | .committed calls => DataCall.entities calls
  | .begun | .lost _ | .others _ => 0

/-- How many entities were put by calls that were lost with it. -/
def forgone : LedgerEntry → Nat
  | .lost calls => DataCall.entities calls
  | .begun | .direct _ | .committed _ | .others _ => 0

end LedgerEntry

/-- What a ledger accounts for: the documents, the counters, how many transactions are open, and how
many entities are put in them. -/
structure Standing where
  documents : SortedMap Key Properties
  metrics : Metrics
  live : Nat
  staged : Nat

/-- Whether a ledger leads from one standing to another. -/
structure Accounts (ledger : List LedgerEntry) (s s' : Standing) : Prop where
  documents : s'.documents = ledger.foldl LedgerEntry.apply s.documents
  committed : s'.metrics.committed = s.metrics.committed + ledger.countP (·.isCommitted)
  rolledBack : s'.metrics.rolledBack = s.metrics.rolledBack + ledger.countP (·.isLost)
  begun : s.live + ledger.countP (·.isBegun) =
    ledger.countP (·.isCommitted) + ledger.countP (·.isLost) + s'.live
  written : s'.metrics.written + s.staged =
    s.metrics.written + (ledger.map (·.applied)).sum + (ledger.map (·.forgone)).sum + s'.staged

namespace Accounts

variable {ledger more : List LedgerEntry} {s s' s'' t t' : Standing}

/-- What is not entered may put entities in an open transaction, and changes nothing else. -/
theorem none {count : Nat} (hdocuments : s'.documents = s.documents)
    (haccepted : s.metrics.Accepted count s'.metrics) (hlive : s'.live = s.live)
    (hstaged : s'.staged = s.staged + count) : Accounts [] s s' where
  documents := hdocuments
  committed := haccepted.committed
  rolledBack := haccepted.rolledBack
  begun := by simp [hlive]
  written := by
    have hwritten := haccepted.written
    simp only [List.map_nil, List.sum_nil]
    omega

theorem refl (s : Standing) : Accounts [] s s := none rfl (.refl s.metrics) rfl rfl

section One

variable {calls : List DataCall}

theorem ofBegun (hdocuments : s'.documents = s.documents) (hmetrics : s'.metrics = s.metrics)
    (hlive : s'.live = s.live + 1) (hstaged : s'.staged = s.staged) : Accounts [.begun] s s' where
  documents := hdocuments
  committed := congrArg (·.committed) hmetrics
  rolledBack := congrArg (·.rolledBack) hmetrics
  begun := by
    show s.live + 1 = 0 + 0 + s'.live
    omega
  written := by
    rw [hmetrics, hstaged]
    rfl

theorem ofDirect
    (hdocuments : s'.documents = Write.applyAll s.documents (calls.flatMap DataCall.writes))
    (haccepted : s.metrics.Accepted (DataCall.entities calls) s'.metrics) (hlive : s'.live = s.live)
    (hstaged : s'.staged = s.staged) : Accounts [.direct calls] s s' where
  documents := hdocuments
  committed := haccepted.committed
  rolledBack := haccepted.rolledBack
  begun := by
    show s.live + 0 = 0 + 0 + s'.live
    omega
  written := by
    rw [haccepted.written, hstaged]
    rfl

theorem ofCommitted
    (hdocuments : s'.documents = Write.applyAll s.documents (calls.flatMap DataCall.writes))
    (hmetrics : s'.metrics = s.metrics.record true) (hlive : s.live = s'.live + 1)
    (hstaged : s.staged = DataCall.entities calls + s'.staged) : Accounts [.committed calls] s s' where
  documents := hdocuments
  committed := congrArg (·.committed) hmetrics
  rolledBack := congrArg (·.rolledBack) hmetrics
  begun := by
    show s.live + 0 = 1 + 0 + s'.live
    omega
  written := by
    rw [hmetrics, Metrics.written_record, hstaged]
    show _ = _ + (DataCall.entities calls + 0) + 0 + _
    omega

theorem ofLost (hdocuments : s'.documents = s.documents)
    (hmetrics : s'.metrics = s.metrics.record false) (hlive : s.live = s'.live + 1)
    (hstaged : s.staged = DataCall.entities calls + s'.staged) : Accounts [.lost calls] s s' where
  documents := hdocuments
  committed := congrArg (·.committed) hmetrics
  rolledBack := congrArg (·.rolledBack) hmetrics
  begun := by
    show s.live + 0 = 0 + 1 + s'.live
    omega
  written := by
    rw [hmetrics, Metrics.written_record, hstaged]
    show _ = _ + 0 + (DataCall.entities calls + 0) + _
    omega

theorem ofOthers (metrics : Metrics) (live staged : Nat)
    (documents documents' : SortedMap Key Properties) :
    Accounts [.others documents'] ⟨documents, metrics, live, staged⟩
      ⟨documents', metrics, live, staged⟩ where
  documents := rfl
  committed := rfl
  rolledBack := rfl
  begun := by
    show live + 0 = 0 + 0 + live
    omega
  written := rfl

end One

theorem append (h : Accounts ledger s s') (h' : Accounts more s' s'') :
    Accounts (ledger ++ more) s s'' where
  documents := by rw [h'.documents, h.documents, List.foldl_append]
  committed := by rw [h'.committed, h.committed, List.countP_append, Nat.add_assoc]
  rolledBack := by rw [h'.rolledBack, h.rolledBack, List.countP_append, Nat.add_assoc]
  begun := by
    have hfirst := h.begun
    have hmore := h'.begun
    rw [List.countP_append, List.countP_append, List.countP_append]
    omega
  written := by
    have hfirst := h.written
    have hmore := h'.written
    rw [List.map_append, List.map_append, List.sum_append, List.sum_append]
    omega

/-- The same ledger leads from one standing to another where other transactions are open as well. -/
theorem beside (h : Accounts ledger s s') (hbefore : t.documents = s.documents ∧ t.metrics = s.metrics)
    (hafter : t'.documents = s'.documents ∧ t'.metrics = s'.metrics)
    (hlive : t'.live + s.live = t.live + s'.live)
    (hstaged : t'.staged + s.staged = t.staged + s'.staged) : Accounts ledger t t' where
  documents := by rw [hafter.1, hbefore.1, h.documents]
  committed := by rw [hafter.2, hbefore.2, h.committed]
  rolledBack := by rw [hafter.2, hbefore.2, h.rolledBack]
  begun := by
    have hbegun := h.begun
    omega
  written := by
    have hwritten := h.written
    rw [hafter.2, hbefore.2]
    omega

end Accounts

/-! ## Connections -/

/-- Whether the transaction in a slot can be used and holds the writes of calls; without one there are
no calls. -/
def Slot.Holds (calls : List DataCall) : Slot → Prop
  | .active t => t.finished = false ∧ t.staged = SortedMap.ofList (calls.flatMap DataCall.writes)
  | _ => calls = []

theorem Slot.Holds.usable {slot : Slot} {calls : List DataCall} (h : slot.Holds calls) :
    slot.Usable := by
  rintro t rfl
  exact h.1

theorem Slot.Holds.eq_nil {slot : Slot} {calls : List DataCall} (h : slot.Holds calls)
    (hidle : slot.isActive = false) : calls = [] := by
  cases slot with
  | active t => cases hidle
  | idle | committed | rolledBack => exact h

namespace Connection

/-- The standing of a connection whose open transaction holds calls. -/
def standing (c : Connection) (held : List DataCall) : Standing :=
  ⟨c.store.documents, c.metrics, if c.slot.isActive then 1 else 0, DataCall.entities held⟩

/-- Whether a ledger leads from a connection to another, with the calls that the open transactions
hold. -/
structure Books (ledger : List LedgerEntry) (c : Connection) (held : List DataCall) (c' : Connection)
    (held' : List DataCall) : Prop where
  accounts : Accounts ledger (c.standing held) (c'.standing held')
  holds : c'.slot.Holds held'

/-! ### Operations -/

/-- What is entered for calls with a transaction of their own. -/
def enterAlone (calls : List DataCall) (c : Connection) : List LedgerEntry :=
  match Store.beginTransaction c.store with
  | (.error _, _) => []
  | (.ok t, store) =>
    let s := { c with store }.session (some t)
    match (thenCommit (Session.makeAll calls) s).1 with
    | .ok _ => [.begun, .committed (Session.effective calls s)]
    | .error _ => [.begun, .lost (Session.effective calls s)]

/-- What is entered for an operation whose calls in a session are given, and the calls that the open
transaction then holds. -/
def enter (policy : Policy) (calls held : List DataCall) (c : Connection) :
    List LedgerEntry × List DataCall :=
  if c.closed then ([], held)
  else
    match c.slot with
    | .active t => ([], held ++ Session.effective calls (c.session (some t)))
    | _ =>
      if policy.transactional then (c.enterAlone calls, held)
      else ([.direct (Session.effective calls (c.session none))], held)

section Calls

variable {held : List DataCall} {c : Connection}

theorem executeAlone_books (calls : List DataCall) (hholds : c.slot.Holds held)
    (operation : OperationKind) (label : String) :
    Books (c.enterAlone calls) c held
      (executeAlone operation label (Session.makeAll calls) c).2 held := by
  have hbegin := Store.documents_beginTransaction c.store
  unfold executeAlone enterAlone
  rcases hr : Store.beginTransaction c.store with ⟨e | t, store⟩ <;> rw [hr] at hbegin
  · exact ⟨.none hbegin (.refl c.metrics) rfl rfl, hholds⟩
  · obtain rfl := Store.eq_of_beginTransaction hr
    obtain ⟨r, s, hcommit, haccepted, hdocuments⟩ := thenCommit_makeAll_cases calls
      (s := { c with store }.session (some ⟨∅, false⟩)) rfl
    -- the standing once the transaction is begun, and before it ends
    let before := c.standing held
    let begun : Standing := { before with live := before.live + 1 }
    let made : Standing := { begun with
      metrics := s.metrics
      staged := begun.staged + DataCall.entities
        (Session.effective calls ({ c with store }.session (some ⟨∅, false⟩))) }
    have hbegun : Accounts [.begun] before begun := .ofBegun rfl rfl rfl rfl
    have hmade : Accounts [] begun made := .none rfl haccepted rfl rfl
    dsimp only
    rw [hcommit]
    cases r with
    | ok _ =>
      refine ⟨(hbegun.append hmade).append (.ofCommitted ?_ ?_ rfl ?_), hholds⟩
      · exact ((Session.documents_releaseTransaction s).trans hdocuments).trans
          (congrArg (Write.applyAll · _) hbegin)
      · exact congrArg (·.record true) (Session.metrics_releaseTransaction s)
      · exact Nat.add_comm ..
    | error e =>
      refine ⟨(hbegun.append hmade).append (.ofLost ?_ ?_ rfl ?_), hholds⟩
      · exact (((Session.documents_releaseTransaction _).trans (Session.documents_rollback s)).trans
          hdocuments).trans hbegin
      · exact congrArg (·.record false) ((Session.metrics_releaseTransaction _).trans
          (Session.metrics_onTransaction Staging.rollback s))
      · exact Nat.add_comm ..

/-- In the open transaction nothing takes effect yet. -/
theorem executeIn_books (calls : List DataCall) {t : Transaction} (ht : c.slot = .active t)
    (hholds : c.slot.Holds held) (operation : OperationKind) :
    Books [] c held (executeIn operation t (Session.makeAll calls) c).2
      (held ++ Session.effective calls (c.session (some t))) := by
  rw [ht] at hholds
  obtain ⟨hfinished, hstaged⟩ := hholds
  obtain ⟨hdid, haccepted⟩ :=
    Session.makeAll_made calls (s := c.session (some t)) (.of_some rfl hfinished)
  obtain ⟨ht', hdata⟩ := hdid
  refine ⟨.none hdata.documents haccepted ?_ (DataCall.entities_append ..), ?_⟩
  · show 1 = if c.slot.isActive then 1 else 0
    rw [ht]
    rfl
  · rw [executeIn]
    dsimp only
    rw [ht', Option.getD_some]
    refine ⟨(Staging.stageAll_finished ..).trans hfinished, ?_⟩
    rw [List.flatMap_append]
    exact Staging.staged_stageAll_ofList hstaged _

theorem executeDirectly_books (calls : List DataCall) (hholds : c.slot.Holds held) (label : String) :
    Books [.direct (Session.effective calls (c.session none))] c held
      (executeDirectly label (Session.makeAll calls) c).2 held := by
  obtain ⟨⟨-, hdata⟩, haccepted⟩ :=
    Session.makeAll_made calls (s := c.session none) (.of_none rfl)
  exact ⟨.ofDirect hdata.documents haccepted rfl rfl, hholds⟩

theorem execute_books (calls : List DataCall) (hholds : c.slot.Holds held) (policy : Policy)
    (operation : OperationKind) (label : String) :
    Books (c.enter policy calls held).1 c held
      (execute policy operation label (Session.makeAll calls) c).2 (c.enter policy calls held).2 := by
  unfold execute enter
  split
  · exact ⟨.refl _, hholds⟩
  · cases ht : c.slot with
    | active t => exact executeIn_books calls ht hholds operation
    | idle | committed | rolledBack =>
      dsimp only
      split
      · exact executeAlone_books calls hholds operation label
      · exact executeDirectly_books calls hholds label

/-- A bulk call is entered as the calls that it is split into. -/
theorem afterCall_books (hholds : c.slot.Holds held) (policy : Policy) (label : String)
    (call : DataCall) :
    Books (c.enter policy (call.parts policy.limits) held).1 c held (c.afterCall policy label call)
      (c.enter policy (call.parts policy.limits) held).2 := by
  have hall {α : Type} {body : Action Session α} {ws : List Write}
      (hbody : Session.Performs body ws)
      (hsame : ∀ s, (body s).2 = (Session.makeAll (call.parts policy.limits) s).2)
      (operation : OperationKind) (label : String) :
      Books (c.enter policy (call.parts policy.limits) held).1 c held
        (execute policy operation label body c).2 (c.enter policy (call.parts policy.limits) held).2 := by
    have hcourse := Session.SameCourse.of_performs hbody (Session.makeAll_performs _) hsame
    rw [execute_congr hcourse hholds.usable]
    exact execute_books _ hholds policy operation label
  cases call with
  | lookup keys =>
    exact hall (Session.lookup_performs _ keys) (Session.lookup_eq_makeAll _ keys) .read label
  | put batch =>
    exact hall (Session.put_performs _ batch) (Session.put_eq_makeAll _ batch) .write label
  | delete keys =>
    exact hall (Session.delete_performs _ keys) (Session.delete_eq_makeAll _ keys) .write label
  | query q =>
    exact hall (Session.runQuery_performs q) (Session.runQuery_eq_makeAll policy.limits q) .read
      q.describe

end Calls

/-! ### Chains -/

/-- Whether bulk calls under a policy lead from a connection to another, with what is entered for them,
and with the calls that the open transaction holds at both ends. -/
inductive BookedChain (policy : Policy) (c : Connection) (held : List DataCall) :
    List LedgerEntry → Connection → List DataCall → Prop where
  | refl : BookedChain policy c held [] c held
  | bulk {ledger : List LedgerEntry} {c' : Connection} {held' : List DataCall} (call : DataCall)
    (label : String) (h : BookedChain policy c held ledger c' held') :
    BookedChain policy c held (ledger ++ (c'.enter policy (call.parts policy.limits) held').1)
      (c'.afterCall policy label call) (c'.enter policy (call.parts policy.limits) held').2

section Chains

variable {policy : Policy} {c c' : Connection} {held held' : List DataCall}

theorem LoggedChain.exists_booked {log : List CallMade} (h : LoggedChain policy c log c')
    (held : List DataCall) : ∃ ledger held', BookedChain policy c held ledger c' held' := by
  induction h with
  | refl => exact ⟨[], held, .refl⟩
  | bulk call label _ ih =>
    obtain ⟨ledger, held', ih⟩ := ih
    exact ⟨_, _, ih.bulk call label⟩

theorem BookedChain.exists_logged {ledger : List LedgerEntry}
    (h : BookedChain policy c held ledger c' held') : ∃ log, LoggedChain policy c log c' := by
  induction h with
  | refl => exact ⟨[], .refl⟩
  | bulk call label _ ih =>
    obtain ⟨log, ih⟩ := ih
    exact ⟨_, ih.bulk call label⟩

/-- A chain has done what is entered for its bulk calls. -/
theorem BookedChain.books {ledger : List LedgerEntry}
    (h : BookedChain policy c held ledger c' held') (hholds : c.slot.Holds held) :
    Books ledger c held c' held' := by
  induction h with
  | refl => exact ⟨.refl _, hholds⟩
  | bulk call label _ ih =>
    have hcall := afterCall_books ih.holds policy label call
    exact ⟨ih.accounts.append hcall.accounts, hcall.holds⟩

theorem enter_of_isActive (hactive : c.slot.isActive = true) (calls : List DataCall) :
    (c.enter policy calls held).1 = [] := by
  unfold enter
  split
  · rfl
  · cases hslot : c.slot with
    | active t => rfl
    | idle | committed | rolledBack =>
      rw [hslot] at hactive
      cases hactive

/-- While the handle's transaction is open nothing is entered. -/
theorem BookedChain.ledger_eq_nil {ledger : List LedgerEntry}
    (h : BookedChain policy c held ledger c' held') (husable : c.slot.Usable)
    (hactive : c.slot.isActive = true) : ledger = [] := by
  induction h with
  | refl => rfl
  | bulk call label h ih =>
    obtain ⟨log, hlogged⟩ := h.exists_logged
    have hkept := (hlogged.chain.keepsScope husable).isActive
    rw [ih, enter_of_isActive (hkept.trans hactive), List.append_nil]

end Chains

/-! ### Explicit transactions -/

/-- What is entered when the handle's transaction is to be opened. -/
def enterBegin (c : Connection) : List LedgerEntry :=
  if c.closed || c.slot.isActive then []
  else
    match (Store.beginTransaction c.store).1 with
    | .ok _ => [.begun]
    | .error _ => []

/-- What is entered when the handle's transaction, which holds calls, is to be committed. -/
def enterCommit (held : List DataCall) (c : Connection) : List LedgerEntry :=
  match c.slot with
  | .active t =>
    match (Staging.commit ⟨c.store, t⟩).1 with
    | .ok _ => [.committed held]
    | .error _ => [.lost held]
  | _ => []

/-- What is entered when the handle's transaction, which holds calls, is given up. -/
def enterEnd (held : List DataCall) (c : Connection) : List LedgerEntry :=
  if c.slot.isActive then [.lost held] else []

section Scopes

variable {c : Connection} {held : List DataCall}

/-- Nothing takes effect when a transaction is opened, or when it is given up. -/
theorem applied_enterBegin (c : Connection) : (c.enterBegin.map (·.applied)).sum = 0 := by
  unfold enterBegin
  split
  · rfl
  · split <;> rfl

theorem applied_enterEnd (held : List DataCall) (c : Connection) :
    ((c.enterEnd held).map (·.applied)).sum = 0 := by
  unfold enterEnd
  split <;> rfl

theorem beginScope_books (hholds : c.slot.Holds held) :
    Books c.enterBegin c held (beginScope c).2 held := by
  have hbegin := Store.documents_beginTransaction c.store
  unfold beginScope enterBegin
  cases hclosed : c.closed with
  | true => exact ⟨.refl _, hholds⟩
  | false =>
    have hlive : (c.standing held).live = if c.slot.isActive then 1 else 0 := rfl
    cases hslot : c.slot with
    | active t => exact ⟨.refl _, hholds⟩
    | idle | committed | rolledBack =>
      rw [hslot] at hholds hlive
      obtain rfl : held = [] := hholds
      rcases hr : Store.beginTransaction c.store with ⟨e | t, store⟩ <;> rw [hr] at hbegin
      · exact ⟨.none hbegin (.refl c.metrics) hlive.symm rfl, rfl⟩
      · obtain rfl := Store.eq_of_beginTransaction hr
        exact ⟨.ofBegun hbegin rfl (congrArg (· + 1) hlive.symm) rfl, rfl, rfl⟩

theorem Books.idle (hholds : c.slot.Holds held) (hidle : c.slot.isActive = false) :
    Books [] c held c [] := by
  obtain rfl := hholds.eq_nil hidle
  exact ⟨.refl _, hholds⟩

/-- An open transaction that was ended without a commit, whatever the store has answered. -/
theorem Books.lost {c' : Connection} {t : Transaction} (ht : c.slot = .active t)
    (hdocuments : c'.store.documents = c.store.documents)
    (hmetrics : c'.metrics = c.metrics.record false) (hslot : c'.slot = .rolledBack) :
    Books [.lost held] c held c' [] := by
  refine ⟨.ofLost hdocuments hmetrics ?_ rfl, ?_⟩
  · rw [standing, standing, ht, hslot]
    rfl
  · rw [hslot]
    rfl

/-- A transaction ends in one of two ways, as the store answers to its commit. -/
theorem commitScope_books (hholds : c.slot.Holds held) :
    Books (c.enterCommit held) c held (commitScope c).2 [] := by
  unfold commitScope enterCommit
  cases hslot : c.slot with
  | active t =>
    rw [hslot] at hholds
    dsimp only
    rcases Staging.commit_cases ⟨c.store, t⟩ with ⟨g, hcommit, hdocuments⟩ | ⟨e, g, hcommit, hdocuments⟩
    · rw [hcommit]
      refine ⟨.ofCommitted ?_ rfl ?_ rfl, rfl⟩
      · exact ((Staging.documents_release ..).trans hdocuments).trans
          (Staging.applyStaged_eq_applyAll hholds.2 _)
      · rw [standing, hslot]
        rfl
    · rw [hcommit]
      exact .lost hslot (((Staging.documents_release ..).trans (Staging.documents_rollback g)).trans
        hdocuments) rfl rfl
  | idle | committed | rolledBack => exact .idle hholds (congrArg Slot.isActive hslot)

theorem rollbackScope_books (hholds : c.slot.Holds held) :
    Books (c.enterEnd held) c held (rollbackScope c).2 [] := by
  unfold rollbackScope enterEnd
  cases hslot : c.slot with
  | active t =>
    exact .lost hslot ((Staging.documents_release ..).trans (Staging.documents_rollback _)) rfl rfl
  | idle | committed | rolledBack => exact .idle hholds (congrArg Slot.isActive hslot)

theorem dropScope_books (hholds : c.slot.Holds held) :
    Books (c.enterEnd held) c held c.dropScope [] := by
  unfold dropScope enterEnd
  cases hslot : c.slot with
  | active t => exact .lost hslot (Staging.documents_release ..) rfl rfl
  | idle | committed | rolledBack => exact .idle hholds (congrArg Slot.isActive hslot)

end Scopes

end Connection

end DocumentStore
