import DocumentStore.Proofs.Store.Staging
set_option autoImplicit false

/-!
# Transactions and direct calls in any order

Any number of transactions can be open on one store while other calls go straight to it.  What the
callers see is a list of events, each a call with its answer.  The main statement compares the store
with a serial execution read off that list: the writes of direct calls where they were answered, and
those of a transaction together where its commit was.  It also says what an open transaction sees.

One step keeps `Tracks`, which ties the staged writes of every open transaction to the events; a
whole run keeps it by induction.
-/

namespace DocumentStore

/-- A call for data. -/
inductive DataCall where
  | lookup (keys : List Key)
  | put (batch : List Entity)
  | delete (keys : List Key)
  | query (q : EntityQuery)

/-- The answer to a call. -/
inductive DataAnswer where
  | found (entities : List (Option Entity))
  | page (p : Page)
  | done

namespace DataCall

/-- The call on the store itself. -/
def onStore : DataCall → Action Store DataAnswer
  | .lookup keys => do return .found (← Store.lookup keys)
  | .put batch => do
    Store.put batch
    return .done
  | .delete keys => do
    Store.delete keys
    return .done
  | .query q => do return .page (← Store.runQuery q)

/-- The call in a transaction. -/
def inTransaction : DataCall → Action Staging DataAnswer
  | .lookup keys => do return .found (← Staging.lookup keys)
  | .put batch => do
    Staging.put batch
    return .done
  | .delete keys => do
    Staging.delete keys
    return .done
  | .query q => do return .page (← Staging.runQuery q)

/-- What the call writes, if it succeeds. -/
def writes : DataCall → List Write
  | .lookup _ => []
  | .put batch => Write.ofEntities batch
  | .delete keys => Write.ofDeleted keys
  | .query _ => []

/-- The call on the store makes its writes if it succeeds. -/
theorem onStore_makes (call : DataCall) : Store.Makes call.onStore call.writes := by
  cases call with
  | lookup keys => exact (Store.lookup_makes keys).map _
  | put batch => exact (Store.put_makes batch).map _
  | delete keys => exact (Store.delete_makes keys).map _
  | query q => exact (Store.runQuery_makes q).map _

theorem inTransaction_finished (call : DataCall) {g : Staging}
    (h : g.transaction.finished = true) :
    call.inTransaction g = (.error .transactionFinished, g) := by
  have hrefused := Staging.ensureActive_finished h
  cases call with
  | lookup keys => exact Action.bind_error (Action.bind_error hrefused)
  | put batch => exact Action.bind_error (Action.bind_error hrefused)
  | delete keys => exact Action.bind_error (Action.bind_error hrefused)
  | query q => exact Action.bind_error (Action.bind_error hrefused)

/-- In an unfinished transaction a call stages what it writes and leaves the store's data. -/
theorem inTransaction_stages (call : DataCall) : Staging.Stages call.inTransaction call.writes := by
  cases call with
  | lookup keys => exact (Staging.lookup_stages keys).map _
  | put batch => exact (Staging.put_stages batch).map _
  | delete keys => exact (Staging.delete_stages keys).map _
  | query q => exact (Staging.runQuery_stages q).map _

/-- A lookup in a transaction is answered as the store would with the transaction's writes. -/
theorem lookup_inTransaction (keys : List Key) {g : Staging} {ws : List Write}
    (h : g.transaction.finished = false) (hstaged : g.transaction.staged = SortedMap.ofList ws) :
    ((DataCall.lookup keys).inTransaction g).1 =
      ((DataCall.lookup keys).onStore (g.store.write ws)).1 := by
  simp only [inTransaction, onStore, Action.bind_apply, Staging.lookup_unfinished h,
    Store.lookup_eq, Store.write, Store.admission_withDocuments]
  have hs := (Store.sameData_admission .lookup keys.length g.store).documents
  rcases hr : Store.admission .lookup keys.length g.store with ⟨e | u, s⟩
  · rfl
  · rw [hr] at hs
    simp only [Action.gets, Action.pure_apply, Staging.view_find? hstaged, Store.write]
    rw [show s.documents = g.store.documents from hs]

/-- A query in a transaction is answered by the store. -/
theorem query_inTransaction (q : EntityQuery) {g : Staging} (h : g.transaction.finished = false) :
    ((DataCall.query q).inTransaction g).1 = ((DataCall.query q).onStore g.store).1 := by
  simp only [inTransaction, onStore, Action.bind_apply, Staging.runQuery_unfinished h]
  rcases Store.runQuery q g.store with ⟨_ | _, s⟩ <;> rfl

end DataCall

/-! ## A store shared by callers -/

/-- A store and the transactions begun on it, in their order; nothing where one was given up. -/
structure SharedStore where
  store : Store
  transactions : List (Option Transaction)

/-- What callers can do with a shared store.  Transactions are named by their place. -/
inductive SharedCall where
  /-- Lets the next call at a point fail. -/
  | failNext (point : FailurePoint) (message : String)
  | direct (call : DataCall)
  | begin
  | within (i : Nat) (call : DataCall)
  | commit (i : Nat)
  | rollback (i : Nat)
  /-- Gives a transaction up, unfinished or not. -/
  | drop (i : Nat)

namespace SharedStore

/-- Something done with one transaction. -/
def onTransaction {α : Type} (i : Nat) (x : Action Staging α) : Action SharedStore α := fun s =>
  match s.transactions[i]?.join with
  | none => (.error .noActiveTransaction, s)
  | some t =>
    match x ⟨s.store, t⟩ with
    | (r, g) => (r, ⟨g.store, s.transactions.set i (some g.transaction)⟩)

/-- Begins a transaction. -/
def begin : Action SharedStore Unit := fun s =>
  match Store.beginTransaction s.store with
  | (.error e, store) => (.error e, { s with store })
  | (.ok t, store) => (.ok (), ⟨store, s.transactions ++ [some t]⟩)

/-- Gives a transaction up. -/
def drop (i : Nat) : Action SharedStore Unit := fun s =>
  match s.transactions[i]?.join with
  | none => (.error .noActiveTransaction, s)
  | some t => (.ok (), ⟨s.store.release t, s.transactions.set i none⟩)

end SharedStore

namespace SharedCall

/-- The call on the shared store. -/
def perform : SharedCall → Action SharedStore DataAnswer
  | .failNext point message => fun s => (.ok .done, { s with store := s.store.failNext point message })
  | .direct call => Action.onPart (·.store) (fun s store => { s with store }) call.onStore
  | .begin => do
    SharedStore.begin
    return .done
  | .within i call => SharedStore.onTransaction i call.inTransaction
  | .commit i => do
    SharedStore.onTransaction i Staging.commit
    return .done
  | .rollback i => do
    SharedStore.onTransaction i Staging.rollback
    return .done
  | .drop i => do
    SharedStore.drop i
    return .done

end SharedCall

/-- A call with its answer. -/
abbrev SharedEvent : Type := SharedCall × Outcome DataAnswer

/-- Calls made one after another: what they answered, and the store they leave. -/
def SharedStore.run : List SharedCall → SharedStore → List SharedEvent × SharedStore
  | [], s => ([], s)
  | call :: rest, s =>
    match call.perform s with
    | (r, s) =>
      match run rest s with
      | (events, s) => ((call, r) :: events, s)

/-! ## The serial execution -/

namespace SharedEvent

/-- What an event wrote in transaction `i`. -/
def ownWrites (i : Nat) : SharedEvent → List Write
  | (.within j call, r) => if j = i then Write.onSuccess r call.writes else []
  | _ => []

/-- Whether a transaction was begun. -/
def begins : SharedEvent → Bool
  | (.begin, .ok _) => true
  | _ => false

/-- Whether transaction `i` was committed, rolled back or given up. -/
def ends (i : Nat) : SharedEvent → Bool
  | (.commit j, .ok _) => j == i
  | (.rollback j, .ok _) => j == i
  | (.drop j, .ok _) => j == i
  | _ => false

theorem ends_commit (i : Nat) (a : DataAnswer) : ends i (.commit i, .ok a) = true :=
  beq_self_eq_true i

theorem ends_rollback (i : Nat) (a : DataAnswer) : ends i (.rollback i, .ok a) = true :=
  beq_self_eq_true i

theorem ends_drop (i : Nat) (a : DataAnswer) : ends i (.drop i, .ok a) = true :=
  beq_self_eq_true i

/-- The successful writes in transaction `i`, in the order of the calls. -/
def allOwnWrites (i : Nat) (events : List SharedEvent) : List Write := events.flatMap (ownWrites i)

/-- What an event adds to the serial execution: a direct call its writes, and a commit all of those
of its transaction among the events before. -/
def serialWritesAfter (past : List SharedEvent) : SharedEvent → List Write
  | (.direct call, r) => Write.onSuccess r call.writes
  | (.commit i, r) => Write.onSuccess r (allOwnWrites i past)
  | _ => []

/-- The serial execution of events that come after others. -/
def serialWritesFrom (past : List SharedEvent) : List SharedEvent → List Write
  | [] => []
  | e :: rest => serialWritesAfter past e ++ serialWritesFrom (past ++ [e]) rest

/-- The serial execution: the writes of direct calls and committed transactions. -/
def serialWrites (events : List SharedEvent) : List Write := serialWritesFrom [] events

/-- Whether transaction `i` was begun and has not ended. -/
def isOpen (i : Nat) (events : List SharedEvent) : Bool :=
  decide (i < events.countP begins) && !events.any (ends i)

theorem serialWritesFrom_append_singleton (past events : List SharedEvent) (e : SharedEvent) :
    serialWritesFrom past (events ++ [e]) =
      serialWritesFrom past events ++ serialWritesAfter (past ++ events) e := by
  induction events generalizing past with
  | nil => simp [serialWritesFrom]
  | cons first rest ih =>
    rw [List.cons_append, serialWritesFrom, serialWritesFrom, ih, List.append_assoc,
      List.append_assoc, List.singleton_append]

theorem serialWrites_append_singleton (events : List SharedEvent) (e : SharedEvent) :
    serialWrites (events ++ [e]) = serialWrites events ++ serialWritesAfter events e :=
  serialWritesFrom_append_singleton [] events e

theorem allOwnWrites_append_singleton (i : Nat) (events : List SharedEvent) (e : SharedEvent) :
    allOwnWrites i (events ++ [e]) = allOwnWrites i events ++ ownWrites i e := by
  simp [allOwnWrites]

end SharedEvent

/-! ## What a step keeps -/

open SharedEvent

/-- The store of `start` after events: the documents are those of the serial execution, and each
transaction that is still open has staged its own successful writes. -/
structure Tracks (start : Store) (events : List SharedEvent) (s : SharedStore) : Prop where
  documents : s.store.documents = Write.applyAll start.documents (serialWrites events)
  begun : s.transactions.length = events.countP begins
  fresh : ∀ i, s.transactions.length ≤ i → allOwnWrites i events = []
  staged : ∀ i t, s.transactions[i]? = some (some t) → t.finished = false →
    t.staged = SortedMap.ofList (allOwnWrites i events)
  stays : ∀ i, isOpen i events = true → ∃ t, s.transactions[i]? = some (some t) ∧
    t.finished = false

namespace Tracks

variable {start : Store} {events : List SharedEvent} {s s' : SharedStore} {e : SharedEvent}

theorem initial (start : Store) : Tracks start [] ⟨start, []⟩ where
  documents := rfl
  begun := rfl
  fresh _ _ := rfl
  staged i t h := by simp at h
  stays i h := by simp [isOpen] at h

theorem isOpen_of_append {i : Nat} (hbegins : begins e = false)
    (h : isOpen i (events ++ [e]) = true) : isOpen i events = true ∧ ends i e = false := by
  simp only [isOpen, List.countP_append, List.any_append, Bool.and_eq_true, Bool.not_eq_true',
    Bool.or_eq_false_iff, decide_eq_true_eq] at h ⊢
  simp_all

/-- An event that concerns no transaction, or none that is there. -/
theorem aside (h : Tracks start events s)
    (hdocuments : s'.store.documents = Write.applyAll s.store.documents (serialWritesAfter events e))
    (htransactions : s'.transactions = s.transactions) (hbegins : begins e = false)
    (hown : ∀ i, ownWrites i e = []) : Tracks start (events ++ [e]) s' where
  documents := by
    rw [hdocuments, h.documents, serialWrites_append_singleton, Write.applyAll_append]
  begun := by
    rw [htransactions, h.begun, List.countP_append]
    simp [hbegins]
  fresh i hi := by
    rw [allOwnWrites_append_singleton, hown, h.fresh i (htransactions ▸ hi)]
    rfl
  staged i t ht hf := by
    rw [allOwnWrites_append_singleton, hown, List.append_nil]
    exact h.staged i t (htransactions ▸ ht) hf
  stays i hi := by
    rw [htransactions]
    exact h.stays i (isOpen_of_append hbegins hi).1

/-- An event of one transaction, which is there before it. -/
theorem ofOne (h : Tracks start events s) {i : Nat} {t : Transaction} (slot : Option Transaction)
    (ht : s.transactions[i]? = some (some t))
    (hdocuments : s'.store.documents = Write.applyAll s.store.documents (serialWritesAfter events e))
    (htransactions : s'.transactions = s.transactions.set i slot) (hbegins : begins e = false)
    (hown : ∀ j, j ≠ i → ownWrites j e = [])
    (hstaged : ∀ t', slot = some t' → t'.finished = false →
      t.finished = false ∧ t'.staged = (Staging.stageAll t (ownWrites i e)).staged)
    (hstays : ends i e = false → t.finished = false → ∃ t', slot = some t' ∧ t'.finished = false) :
    Tracks start (events ++ [e]) s' where
  documents := by
    rw [hdocuments, h.documents, serialWrites_append_singleton, Write.applyAll_append]
  begun := by
    rw [htransactions, List.length_set, h.begun, List.countP_append]
    simp [hbegins]
  fresh j hj := by
    rw [htransactions, List.length_set] at hj
    have hne : j ≠ i := by
      intro hji
      subst hji
      have := (List.getElem?_eq_some_iff.mp ht).1
      omega
    rw [allOwnWrites_append_singleton, hown j hne, h.fresh j hj]
    rfl
  staged j t' ht' hf := by
    rw [htransactions, List.getElem?_set] at ht'
    rw [allOwnWrites_append_singleton]
    by_cases hij : i = j
    · subst hij
      rw [if_pos rfl] at ht'
      split at ht'
      · obtain ⟨htf, hstage⟩ := hstaged t' (Option.some.inj ht') hf
        rw [hstage]
        exact Staging.staged_stageAll_ofList (h.staged i t ht htf) _
      · cases ht'
    · rw [if_neg hij] at ht'
      rw [hown j (Ne.symm hij), List.append_nil]
      exact h.staged j t' ht' hf
  stays j hj := by
    obtain ⟨hopen, hends⟩ := isOpen_of_append hbegins hj
    obtain ⟨t₀, ht₀, hf₀⟩ := h.stays j hopen
    rw [htransactions, List.getElem?_set]
    by_cases hij : i = j
    · subst hij
      have htt : t = t₀ := by
        rw [ht] at ht₀
        exact Option.some.inj (Option.some.inj ht₀)
      subst htt
      obtain ⟨t', hslot, hf'⟩ := hstays hends hf₀
      exact ⟨t', by rw [if_pos rfl, if_pos (List.getElem?_eq_some_iff.mp ht).1, hslot], hf'⟩
    · exact ⟨t₀, by rw [if_neg hij, ht₀], hf₀⟩

/-- A transaction that was just begun. -/
theorem afterBegin (h : Tracks start events s) {store : Store} {r : DataAnswer}
    (hdocuments : store.documents = s.store.documents) :
    Tracks start (events ++ [(.begin, .ok r)])
      ⟨store, s.transactions ++ [some ⟨∅, false⟩]⟩ where
  documents := by
    rw [serialWrites_append_singleton, Write.applyAll_append, ← h.documents]
    exact hdocuments
  begun := by
    rw [List.length_append, h.begun, List.countP_append]
    rfl
  fresh i hi := by
    rw [List.length_append] at hi
    rw [allOwnWrites_append_singleton, h.fresh i (by omega)]
    rfl
  staged i t ht hf := by
    rw [allOwnWrites_append_singleton]
    rcases Nat.lt_trichotomy i s.transactions.length with hlt | heq | hgt
    · rw [List.getElem?_append_left hlt] at ht
      rw [h.staged i t ht hf]
      exact congrArg _ (List.append_nil _).symm
    · subst heq
      rw [List.getElem?_concat_length] at ht
      obtain rfl := Option.some.inj (Option.some.inj ht)
      rw [h.fresh _ (Nat.le_refl _)]
      rfl
    · rw [List.getElem?_eq_none (by simp; omega)] at ht
      cases ht
  stays i hi := by
    rcases Nat.lt_trichotomy i s.transactions.length with hlt | heq | hgt
    · obtain ⟨t, ht, hf⟩ := h.stays i (by
        simp only [isOpen, List.any_append, Bool.and_eq_true, Bool.not_eq_true',
          Bool.or_eq_false_iff, decide_eq_true_eq] at hi ⊢
        exact ⟨h.begun ▸ hlt, hi.2.1⟩)
      exact ⟨t, by rw [List.getElem?_append_left hlt, ht], hf⟩
    · subst heq
      exact ⟨⟨∅, false⟩, List.getElem?_concat_length, rfl⟩
    · simp only [isOpen, List.countP_append, Bool.and_eq_true, decide_eq_true_eq] at hi
      have hone : [((.begin, .ok r) : SharedEvent)].countP begins = 1 := rfl
      have := h.begun
      omega

/-- A transaction that answers in some way and is there afterwards. -/
theorem onTransaction {call : SharedCall} {i : Nat} {α : Type} {x : Action Staging α}
    (h : Tracks start events s) (answer : α → DataAnswer)
    (hcall : call.perform = SharedStore.onTransaction i x >>= fun a => pure (answer a))
    (hnone : ∀ e : StorageError, serialWritesAfter events (call, .error e) = [] ∧
      ∀ j, ownWrites j (call, .error e) = [])
    (hbegins : ∀ r, begins (call, r) = false)
    (hown : ∀ j r, j ≠ i → ownWrites j (call, r) = [])
    (hx : ∀ t, s.transactions[i]? = some (some t) →
      (x ⟨s.store, t⟩).2.store.documents = Write.applyAll s.store.documents
        (serialWritesAfter events (call, (x ⟨s.store, t⟩).1.map answer)) ∧
      ((x ⟨s.store, t⟩).2.transaction.finished = false → t.finished = false ∧
        (x ⟨s.store, t⟩).2.transaction.staged =
          (Staging.stageAll t (ownWrites i (call, (x ⟨s.store, t⟩).1.map answer))).staged) ∧
      (ends i (call, (x ⟨s.store, t⟩).1.map answer) = false → t.finished = false →
        (x ⟨s.store, t⟩).2.transaction.finished = false)) :
    Tracks start (events ++ [(call, (call.perform s).1)]) (call.perform s).2 := by
  rw [hcall, Action.bind_apply, SharedStore.onTransaction]
  cases ht : s.transactions[i]?.join with
  | none =>
    obtain ⟨hserial, hwrites⟩ := hnone .noActiveTransaction
    dsimp only
    exact h.aside (by rw [hserial]; rfl) rfl (hbegins _) hwrites
  | some t =>
    have ht' : s.transactions[i]? = some (some t) := Option.join_eq_some_iff.mp ht
    obtain ⟨hdocuments, hstaged, hstays⟩ := hx t ht'
    rcases hg : x ⟨s.store, t⟩ with ⟨r, g⟩
    rw [hg] at hdocuments hstaged hstays
    dsimp only
    rw [hg]
    cases r with
    | error e =>
      dsimp only
      exact h.ofOne _ ht' hdocuments rfl (hbegins _) (fun j => hown j _)
        (fun t' hslot hf => by
          cases hslot
          exact hstaged hf)
        (fun hends hf => ⟨g.transaction, rfl, hstays hends hf⟩)
    | ok a =>
      dsimp only [Action.pure_apply]
      exact h.ofOne _ ht' hdocuments rfl (hbegins _) (fun j => hown j _)
        (fun t' hslot hf => by
          cases hslot
          exact hstaged hf)
        (fun hends hf => ⟨g.transaction, rfl, hstays hends hf⟩)

theorem within (h : Tracks start events s) (i : Nat) (call : DataCall) :
    Tracks start (events ++ [(.within i call, ((SharedCall.within i call).perform s).1)])
      ((SharedCall.within i call).perform s).2 := by
  apply h.onTransaction (i := i) (x := call.inTransaction) id
  · exact (bind_pure (SharedStore.onTransaction i call.inTransaction)).symm
  · intro e
    refine ⟨rfl, fun j => ?_⟩
    simp only [ownWrites, Write.onSuccess_error, ite_self]
  · intro r
    rfl
  · intro j r hj
    rw [ownWrites, if_neg (Ne.symm hj)]
  · intro t _
    cases hf : t.finished with
    | true =>
      rw [call.inTransaction_finished hf]
      exact ⟨rfl, fun hopen => (by rw [hf] at hopen; cases hopen), fun _ hopen => (by cases hopen)⟩
    | false =>
      have hstage := call.inTransaction_stages.staged ⟨s.store, t⟩ hf
      have hdata := call.inTransaction_stages.sameData ⟨s.store, t⟩ hf
      refine ⟨hdata.documents, fun _ => ⟨rfl, ?_⟩, fun _ _ => ?_⟩
      · rw [hstage, ownWrites, if_pos rfl]
        rcases (call.inTransaction ⟨s.store, t⟩).1 with _ | _ <;> rfl
      · rw [hstage, Staging.stageAll_finished, hf]

theorem commit (h : Tracks start events s) (i : Nat) :
    Tracks start (events ++ [(.commit i, ((SharedCall.commit i).perform s).1)])
      ((SharedCall.commit i).perform s).2 := by
  apply h.onTransaction (i := i) (x := Staging.commit) fun _ => .done
  · rfl
  · intro e
    exact ⟨rfl, fun _ => rfl⟩
  · intro r
    rfl
  · intro j r _
    rfl
  · intro t ht
    cases hf : t.finished with
    | true =>
      rw [Staging.commit, Action.bind_error (Staging.ensureActive_finished (g := ⟨s.store, t⟩) hf)]
      exact ⟨rfl, fun hopen => (by rw [hf] at hopen; cases hopen), fun _ hopen => (by cases hopen)⟩
    | false =>
      have hdata := Store.sameData_takeFailure .commit s.store
      rw [Staging.commit_unfinished (g := ⟨s.store, t⟩) hf]
      rcases hr : Store.takeFailure .commit s.store with ⟨e | _, store⟩ <;> rw [hr] at hdata
      · exact ⟨hdata.documents, fun _ => ⟨rfl, rfl⟩, fun _ _ => hf⟩
      · have hdocuments : Staging.applyStaged store.documents t =
            Write.applyAll s.store.documents (allOwnWrites i events) := by
          rw [Staging.applyStaged_eq_applyAll (h.staged i t ht hf)]
          exact congrArg (Write.applyAll · _) hdata.documents
        refine ⟨?_, fun hopen => (by cases hopen), fun hends => ?_⟩
        · exact (Staging.documents_finish _).trans hdocuments
        · exact absurd (hends.symm.trans (ends_commit i .done)) Bool.false_ne_true

theorem rollback (h : Tracks start events s) (i : Nat) :
    Tracks start (events ++ [(.rollback i, ((SharedCall.rollback i).perform s).1)])
      ((SharedCall.rollback i).perform s).2 := by
  apply h.onTransaction (i := i) (x := Staging.rollback) fun _ => .done
  · rfl
  · intro e
    exact ⟨rfl, fun _ => rfl⟩
  · intro r
    rfl
  · intro j r _
    rfl
  · intro t ht
    have hdata := Store.sameData_takeFailure .rollback s.store
    cases hf : t.finished with
    | true =>
      rw [Staging.rollback_finished (g := ⟨s.store, t⟩) hf]
      rcases hr : Store.takeFailure .rollback s.store with ⟨e | _, store⟩ <;> rw [hr] at hdata <;>
        exact ⟨hdata.documents, fun hopen => (by rw [hf] at hopen; cases hopen),
          fun _ hopen => (by cases hopen)⟩
    | false =>
      rw [Staging.rollback_unfinished (g := ⟨s.store, t⟩) hf]
      rcases hr : Store.takeFailure .rollback s.store with ⟨e | _, store⟩ <;> rw [hr] at hdata
      · exact ⟨hdata.documents, fun _ => ⟨rfl, rfl⟩, fun _ _ => hf⟩
      · refine ⟨?_, fun hopen => (by cases hopen), fun hends => ?_⟩
        · exact (Staging.documents_finish _).trans hdata.documents
        · exact absurd (hends.symm.trans (ends_rollback i .done)) Bool.false_ne_true

theorem drop (h : Tracks start events s) (i : Nat) :
    Tracks start (events ++ [(.drop i, ((SharedCall.drop i).perform s).1)])
      ((SharedCall.drop i).perform s).2 := by
  rw [SharedCall.perform, Action.bind_apply, SharedStore.drop]
  cases ht : s.transactions[i]?.join with
  | none => exact h.aside rfl rfl rfl fun _ => rfl
  | some t =>
    apply h.ofOne none (Option.join_eq_some_iff.mp ht)
    · exact Staging.documents_release s.store t
    · rfl
    · rfl
    · intro j _
      rfl
    · intro t' hslot
      cases hslot
    · intro hends
      exact absurd (hends.symm.trans (ends_drop i .done)) Bool.false_ne_true

/-- One call keeps what is known of the store. -/
theorem step (h : Tracks start events s) (call : SharedCall) :
    Tracks start (events ++ [(call, (call.perform s).1)]) (call.perform s).2 := by
  cases call with
  | failNext point message => exact h.aside rfl rfl rfl fun _ => rfl
  | direct call =>
    have hdata := call.onStore_makes.sameData s.store
    exact h.aside hdata.documents rfl rfl fun _ => rfl
  | begin =>
    have hdata := Store.sameData_takeFailure .start s.store
    rw [SharedCall.perform, Action.bind_apply, SharedStore.begin, Store.beginTransaction,
      Action.bind_apply]
    rcases hr : Store.takeFailure .start s.store with ⟨e | _, store⟩ <;> rw [hr] at hdata
    · exact h.aside hdata.documents rfl rfl fun _ => rfl
    · exact h.afterBegin hdata.documents
  | within i call => exact h.within i call
  | commit i => exact h.commit i
  | rollback i => exact h.rollback i
  | drop i => exact h.drop i

/-- A run keeps what is known of the store. -/
theorem run (h : Tracks start events s) (calls : List SharedCall) :
    Tracks start (events ++ (SharedStore.run calls s).1) (SharedStore.run calls s).2 := by
  induction calls generalizing events s with
  | nil =>
    rw [SharedStore.run, List.append_nil]
    exact h
  | cons call rest ih =>
    have hrest := ih (h.step call)
    rw [List.append_assoc] at hrest
    exact hrest

end Tracks

/-! ## Any order of calls -/

/-- However calls are interleaved and whichever of them fail, the documents at the end are those of
a serial execution.  It has the writes of each successful direct call, and, where a transaction was
committed successfully, all of its successful writes in the order of its calls; other transactions
leave nothing.  At that moment a lookup in an open transaction is answered as the store would be if
the transaction's own writes were applied to it, and a query as by the store itself. -/
theorem SharedStore.run_eq_serial (start : Store) (calls : List SharedCall)
    (events : List SharedEvent) (final : SharedStore)
    (hrun : SharedStore.run calls ⟨start, []⟩ = (events, final)) :
    final.store.documents = Write.applyAll start.documents (serialWrites events) ∧
      ∀ i, isOpen i events = true →
        (∀ keys, ((SharedCall.within i (.lookup keys)).perform final).1 =
          ((DataCall.lookup keys).onStore (final.store.write (allOwnWrites i events))).1) ∧
        ∀ q, ((SharedCall.within i (.query q)).perform final).1 =
          ((DataCall.query q).onStore final.store).1 := by
  have htracks : Tracks start events final := by
    have h := (Tracks.initial start).run calls
    rw [hrun] at h
    exact h
  refine ⟨htracks.documents, fun i hopen => ?_⟩
  obtain ⟨t, ht, hf⟩ := htracks.stays i hopen
  have hstaged := htracks.staged i t ht hf
  have hjoin : final.transactions[i]?.join = some t := Option.join_eq_some_iff.mpr ht
  constructor
  · intro keys
    simp only [SharedCall.perform, SharedStore.onTransaction, hjoin]
    exact DataCall.lookup_inTransaction keys (g := ⟨final.store, t⟩) hf hstaged
  · intro q
    simp only [SharedCall.perform, SharedStore.onTransaction, hjoin]
    exact DataCall.query_inTransaction q (g := ⟨final.store, t⟩) hf

/-- Two transactions and direct calls on a store that takes two writes at a time: a batch that is
too large, a commit that fails before it succeeds, and a removal of what was just put. -/
def mixedCalls : List SharedCall :=
  let entity (name : String) (n : Int) : Entity := ⟨⟨⟨""⟩, ⟨"k"⟩, name⟩, .ofList [("n", .integer n)]⟩
  [.direct (.put [entity "a" 1]), .begin, .begin,
    .within 0 (.put [entity "b" 2, entity "c" 3]), .within 1 (.put [entity "a" 4]),
    .within 0 (.put [entity "a" 5, entity "b" 5, entity "c" 5]),
    .within 0 (.delete [(entity "c" 0).key]), .direct (.delete [(entity "b" 0).key]),
    .failNext .commit "later", .commit 0, .commit 0, .within 1 (.delete [(entity "b" 0).key])]

theorem SharedStore.run_eq_serial_mixedCalls :
    ∃ events final, SharedStore.run mixedCalls ⟨.empty ⟨2, 2⟩ 10, []⟩ = (events, final) ∧
      isOpen 1 events = true ∧ (serialWrites events).length = 5 ∧
      final.store.documents = Write.applyAll ∅ (serialWrites events) ∧
      ∀ keys, ((SharedCall.within 1 (.lookup keys)).perform final).1 =
        ((DataCall.lookup keys).onStore (final.store.write (allOwnWrites 1 events))).1 := by
  have hopen : isOpen 1 (SharedStore.run mixedCalls ⟨.empty ⟨2, 2⟩ 10, []⟩).1 = true := by
    decide +kernel
  have hserial := SharedStore.run_eq_serial (.empty ⟨2, 2⟩ 10) mixedCalls _ _ rfl
  exact ⟨_, _, rfl, hopen, by decide +kernel, hserial.1, (hserial.2 1 hopen).1⟩

end DocumentStore
