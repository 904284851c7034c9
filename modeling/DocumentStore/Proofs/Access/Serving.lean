import DocumentStore.Access.Connection
import DocumentStore.Proofs.Store.Staging
set_option autoImplicit false

/-!
# Connections that answer

A connection that is open and has no failure waiting answers what is read through it, under either
policy and in an open transaction as well, and stays as it is but for the counters.
-/

namespace DocumentStore

/-- A store with the data of `store` and without failures to come. -/
structure Store.Calm (store s : Store) : Prop where
  documents : s.documents = store.documents
  limits : s.limits = store.limits
  pageLimit : s.pageLimit = store.pageLimit
  failures : s.failures = []

namespace Store.Calm

variable {store s s' : Store}

theorem refl (h : s.failures = []) : Calm s s := ⟨rfl, rfl, rfl, h⟩

theorem page (h : Calm store s) (q : EntityQuery) (offset : Nat) :
    s.page q offset = store.page q offset := by
  simp only [Store.page, results_congr h.documents q, h.pageLimit]

/-- A query that starts at a place is answered with the page from there. -/
theorem runQuery (h : Calm store s) {q : EntityQuery} {offset : Nat}
    (hstart : Store.startOffset q = .ok offset) :
    ∃ s', Store.runQuery q s = (.ok (store.page q offset), s') ∧ Calm store s' := by
  have hcounted : Calm store { s with calls := s.calls.bump .query } :=
    ⟨h.documents, h.limits, h.pageLimit, h.failures⟩
  refine ⟨_, ?_, hcounted⟩
  rw [Store.runQuery, Store.enter, Action.bind_apply, Action.bind_apply, Action.modify]
  simp only [Store.takeFailure_of_nil hcounted.failures, Action.bind_apply, Action.ofOutcome, hstart,
    Action.gets, hcounted.page]

end Store.Calm

/-- Calls that a calm store answers with `a`, leaving its data and the transaction. -/
def Session.ReadsAs {α : Type} (store : Store) (body : Action Session α) (a : α) : Prop :=
  ∀ s : Session, Store.Calm store s.store → (∀ t, s.transaction = some t → t.finished = false) →
    ∃ s', body s = (.ok a, s') ∧ Store.Calm store s'.store ∧ s'.transaction = s.transaction

theorem Session.runQuery_readsAs {store : Store} {q : EntityQuery} {offset : Nat}
    (hstart : Store.startOffset q = .ok offset) :
    ReadsAs store (Session.runQuery q) (store.page q offset) := by
  intro s hcalm hunfinished
  obtain ⟨s', hquery, hcalm'⟩ := hcalm.runQuery hstart
  rw [Session.runQuery, Session.call]
  cases ht : s.transaction with
  | none =>
    simp only [hquery]
    exact ⟨_, rfl, hcalm', rfl⟩
  | some t =>
    simp only [Staging.runQuery_unfinished (g := ⟨s.store, t⟩) (hunfinished t ht), hquery]
    exact ⟨_, rfl, hcalm', rfl⟩

/-- A connection on a calm store, open and not left in a finished transaction. -/
structure Connection.Serves (store : Store) (c : Connection) : Prop where
  calm : Store.Calm store c.store
  isOpen : c.closed = false
  unfinished : ∀ t, c.slot = .active t → t.finished = false

/-- The session of a transaction that an operation has begun for itself. -/
def Connection.begun (c : Connection) : Session :=
  ⟨{ c.store with active := c.store.active + 1 }, some ⟨∅, false⟩, c.metrics⟩

theorem Connection.begun_unfinished (c : Connection) :
    ∀ t, c.begun.transaction = some t → t.finished = false := by
  intro t ht
  obtain rfl := Option.some.inj ht
  rfl

namespace Connection.Serves

variable {α : Type} {store : Store} {c : Connection} {body : Action Session α} {a : α}

theorem of_inactive (hcalm : Store.Calm store c.store) (hopen : c.closed = false)
    (hidle : c.slot.isActive = false) : Serves store c := by
  refine ⟨hcalm, hopen, fun t ht => ?_⟩
  rw [ht] at hidle
  cases hidle

theorem executeIn (h : Serves store c) (hbody : Session.ReadsAs store body a) {t : Transaction}
    (ht : c.slot = .active t) (operation : OperationKind) :
    ∃ c', Connection.executeIn operation t body c = (.ok a, c') ∧ Serves store c' := by
  have hunfinished : ∀ t', (c.session (some t)).transaction = some t' → t'.finished = false := by
    intro t' htt
    exact h.unfinished t' (by rw [ht, Option.some.inj htt])
  obtain ⟨s', hrun, hcalm, htransaction⟩ := hbody (c.session (some t)) h.calm hunfinished
  unfold Connection.executeIn
  simp only [hrun]
  refine ⟨_, rfl, hcalm, h.isOpen, ?_⟩
  intro t' ht'
  rw [htransaction] at ht'
  obtain rfl := Slot.active.inj ht'
  exact h.unfinished t ht

theorem executeDirectly (h : Serves store c) (hbody : Session.ReadsAs store body a)
    (label : String) :
    ∃ c', Connection.executeDirectly label body c = (.ok a, c') ∧ Serves store c' := by
  obtain ⟨s', hrun, hcalm, -⟩ := hbody (c.session none) h.calm (by intro t ht; cases ht)
  unfold Connection.executeDirectly
  simp only [hrun]
  exact ⟨_, rfl, hcalm, h.isOpen, h.unfinished⟩

theorem beginTransaction (h : Serves store c) :
    Store.beginTransaction c.store = (.ok ⟨∅, false⟩, c.begun.store) := by
  rw [Store.beginTransaction, Action.bind_ok (Store.takeFailure_of_nil h.calm.failures .start)]
  rfl

/-- A transaction that only read leaves the documents when it is committed, and makes no call then. -/
theorem alone (h : Serves store c) {s' : Session}
    (hrun : body c.begun = (.ok a, s'))
    (hcalm : Store.Calm store s'.store) (htransaction : s'.transaction = some ⟨∅, false⟩)
    (operation : OperationKind) (label : String) :
    ∃ c', Connection.executeAlone operation label body c = (.ok a, c') ∧ Serves store c' ∧
      c'.store.calls = s'.store.calls := by
  have hcommit : Staging.commit ⟨s'.store, ⟨∅, false⟩⟩ =
      (.ok (), Staging.finish ⟨s'.store, ⟨∅, false⟩⟩) := by
    rw [Staging.commit_unfinished rfl]
    simp only [Store.takeFailure_of_nil hcalm.failures]
    rfl
  have hbody : body ({ c with store := c.begun.store }.session (some ⟨∅, false⟩)) = (.ok a, s') :=
    hrun
  rw [Connection.executeAlone, h.beginTransaction]
  simp only [Connection.thenCommit, Action.bind_ok hbody]
  rw [Action.bind_apply, Session.onTransaction, htransaction]
  simp only [hcommit, Action.pure_apply]
  refine ⟨_, rfl, ⟨⟨?_, ?_, ?_, ?_⟩, h.isOpen, h.unfinished⟩, rfl⟩
  · exact hcalm.documents
  · exact hcalm.limits
  · exact hcalm.pageLimit
  · exact hcalm.failures

theorem begun_calm (h : Serves store c) : Store.Calm store c.begun.store :=
  ⟨h.calm.documents, h.calm.limits, h.calm.pageLimit, h.calm.failures⟩

theorem executeAlone (h : Serves store c) (hbody : Session.ReadsAs store body a)
    (operation : OperationKind) (label : String) :
    ∃ c', Connection.executeAlone operation label body c = (.ok a, c') ∧ Serves store c' := by
  obtain ⟨s', hrun, hcalm, htransaction⟩ := hbody c.begun h.begun_calm c.begun_unfinished
  obtain ⟨c', halone, hserves, -⟩ := h.alone hrun hcalm htransaction operation label
  exact ⟨c', halone, hserves⟩

/-- What is read through a connection under its policy. -/
theorem execute (h : Serves store c) (hbody : Session.ReadsAs store body a) (policy : Policy)
    (operation : OperationKind) (label : String) :
    ∃ c', Connection.execute policy operation label body c = (.ok a, c') ∧ Serves store c' := by
  rw [Connection.execute, if_neg (by simp [h.isOpen])]
  cases hslot : c.slot with
  | active t => exact h.executeIn hbody hslot operation
  | idle | committed | rolledBack =>
    dsimp only
    split
    · exact h.executeAlone hbody operation label
    · exact h.executeDirectly hbody label

/-- A query is answered with the page from its start. -/
theorem runQuery (h : Serves store c) (policy : Policy) {q : EntityQuery} {offset : Nat}
    (hstart : Store.startOffset q = .ok offset) :
    ∃ c', Connection.runQuery policy q c = (.ok (store.page q offset), c') ∧ Serves store c' :=
  h.execute (Session.runQuery_readsAs hstart) policy .read q.describe

end Connection.Serves

end DocumentStore
