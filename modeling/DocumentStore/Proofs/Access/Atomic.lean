import DocumentStore.Access.Connection
import DocumentStore.Proofs.Access.Effects
set_option autoImplicit false

/-!
# Operations with a transaction of their own

Under the transactional policy an operation outside an explicit transaction leaves all of its writes
or none, wherever a call fails: when the transaction begins, at any of its calls, at the commit, or
at the rollback that follows.  The transaction is given up in every case.
-/

namespace DocumentStore

/-! ## Giving a transaction up -/

namespace Store

theorem takeFailure_ok {point : FailurePoint} {s s' : Store}
    (h : takeFailure point s = (.ok (), s')) : s' = s := by
  unfold takeFailure at h
  split at h
  · cases h
  · exact (congrArg Prod.snd h).symm

theorem takeFailure_error {point : FailurePoint} {s s' : Store} {e : StorageError}
    (h : takeFailure point s = (.error e, s')) : s'.failures.length < s.failures.length := by
  unfold takeFailure at h
  split at h
  · next failure message hfound =>
    obtain rfl := congrArg Prod.snd h
    have hmem := List.mem_of_find?_eq_some hfound
    have hpos := List.length_pos_of_mem hmem
    have hlength := List.length_eraseP_of_mem hmem (List.find?_some hfound)
    dsimp only at hlength ⊢
    omega
  · cases h

theorem length_takeFailure_le (point : FailurePoint) (s : Store) :
    (takeFailure point s).2.failures.length ≤ s.failures.length := by
  rcases hr : takeFailure point s with ⟨e | _, s'⟩
  · exact Nat.le_of_lt (takeFailure_error hr)
  · exact Nat.le_of_eq (congrArg (·.failures.length) (takeFailure_ok hr))

theorem release_unfinished (s : Store) {t : Transaction} (h : t.finished = false) :
    s.release t = { s with active := s.active - 1 } := by
  rw [release, if_neg (by simp [h])]

theorem release_finished (s : Store) (staged : SortedMap Key (Option Properties)) :
    s.release ⟨staged, true⟩ = s := rfl

end Store

theorem CallCounts.bump_ne (counts : CallCounts) (kind : CallKind) : counts.bump kind ≠ counts := by
  intro heq
  have hone := congrArg (·.of kind) heq
  cases kind <;> simp [bump, of] at hone

namespace Session

/-- A transaction that is rolled back is given up, also if the rollback fails.  No failure comes to
those that wait, and no round trip is counted. -/
theorem rollback_givesUp {s : Session} {store : Store} {t : Transaction}
    (ht : s.transaction = some t) (hf : t.finished = false)
    (h : Store.SameData { store with active := store.active + 1 } s.store) :
    Store.SameData store (onTransaction Staging.rollback s).2.releaseTransaction.store ∧
      (onTransaction Staging.rollback s).2.releaseTransaction.store.failures.length ≤
        s.store.failures.length ∧
      (onTransaction Staging.rollback s).2.releaseTransaction.metrics = s.metrics := by
  have hdata := h.trans (Store.sameData_takeFailure .rollback s.store)
  have hactive : (Store.takeFailure .rollback s.store).2.active - 1 = store.active :=
    congrArg (· - 1) hdata.active
  have hle := Store.length_takeFailure_le .rollback s.store
  rw [onTransaction, ht]
  dsimp only
  rw [Staging.rollback_unfinished (g := ⟨s.store, t⟩) hf]
  rcases hr : Store.takeFailure .rollback s.store with ⟨e | _, rolled⟩ <;> rw [hr] at hdata hactive hle
  · simp only [releaseTransaction, Store.release_unfinished _ hf]
    exact ⟨⟨hdata.documents, hdata.limits, hdata.pageLimit, hactive⟩, hle, trivial⟩
  · simp only [releaseTransaction, Staging.finish, Store.release_unfinished _ hf,
      Store.release_finished]
    exact ⟨⟨hdata.documents, hdata.limits, hdata.pageLimit, hactive⟩, hle, trivial⟩

/-- A commit fails and leaves the transaction, or applies what was staged and gives it up. -/
theorem commit_staged {s : Session} {store : Store} {t : Transaction}
    (ht : s.transaction = some t) (hf : t.finished = false) {ws : List Write}
    (hstaged : t.staged = SortedMap.ofList ws)
    (h : Store.SameData { store with active := store.active + 1 } s.store) :
    (∃ e s', onTransaction Staging.commit s = (.error e, s') ∧ s'.transaction = some t ∧
        Store.SameData { store with active := store.active + 1 } s'.store ∧
        s'.store.failures.length < s.store.failures.length) ∨
      ∃ s', onTransaction Staging.commit s = (.ok (), s') ∧ Unfailed s s'.releaseTransaction ∧
        Store.SameData (store.write ws) s'.releaseTransaction.store := by
  have hdata := h.trans (Store.sameData_takeFailure .commit s.store)
  rw [onTransaction, ht]
  dsimp only
  rw [Staging.commit_unfinished (g := ⟨s.store, t⟩) hf]
  rcases hr : Store.takeFailure .commit s.store with ⟨e | _, committed⟩ <;> rw [hr] at hdata
  · exact .inl ⟨e, _, rfl, rfl, hdata, Store.takeFailure_error hr⟩
  · obtain rfl := Store.takeFailure_ok hr
    refine .inr ⟨_, rfl, ⟨?_, rfl⟩, ?_⟩
    · simp only [releaseTransaction, Staging.finish, Store.release_unfinished _ hf,
        Store.release_finished]
    · simp only [releaseTransaction, Staging.finish, Store.release_unfinished _ hf,
        Store.release_finished, Staging.applyStaged_eq_applyAll hstaged]
      exact ⟨congrArg (Write.applyAll · ws) hdata.documents, hdata.limits, hdata.pageLimit,
        congrArg (· - 1) hdata.active⟩

end Session

/-! ## All or nothing -/

namespace Connection

variable {α β : Type}

/-- Whether no call failed: no waiting failure was used up, and no failed round trip counted. -/
structure Unfailed (c c' : Connection) : Prop where
  waiting : c'.store.failures = c.store.failures
  counted : c'.metrics.failures = c.metrics.failures

theorem Unfailed.refl (c : Connection) : Unfailed c c := ⟨rfl, rfl⟩

theorem Unfailed.trans {c c' c'' : Connection} (h : Unfailed c c') (h' : Unfailed c' c'') :
    Unfailed c c'' where
  waiting := h'.waiting.trans h.waiting
  counted := h'.counted.trans h.counted

/-- Whether some call failed. -/
def CallFailed (c c' : Connection) : Prop := ¬ Unfailed c c'

/-- What an operation leaves.  It answers and has made all of its writes, or it fails and has made
none; failed calls are reported as those of an operation of the given kind. -/
structure AllOrNothing (operation : OperationKind) (ws : List Write) (c : Connection)
    (r : Outcome α) (c' : Connection) : Prop where
  closed : c'.closed = c.closed
  slot : c'.slot = c.slot
  done : ∀ a, r = .ok a → Store.SameData (c.store.write ws) c'.store ∧ Unfailed c c'
  undone : ∀ e, r = .error e → Store.SameData c.store c'.store ∧
    (Unfailed c c' ∨ ∃ source, e = .transaction operation source)

theorem AllOrNothing.ofFailed {operation : OperationKind} {ws : List Write} {c c' : Connection}
    {source : StorageError} (hclosed : c'.closed = c.closed) (hslot : c'.slot = c.slot)
    (hdata : Store.SameData c.store c'.store) :
    AllOrNothing operation ws c (.error (.transaction operation source) : Outcome α) c' where
  closed := hclosed
  slot := hslot
  done _ hok := by cases hok
  undone e he := ⟨hdata, .inr ⟨source, (Except.error.inj he).symm⟩⟩

theorem AllOrNothing.map {operation : OperationKind} {ws : List Write} {c c' : Connection}
    {r : Outcome α} (h : AllOrNothing operation ws c r c') (f : α → β) :
    AllOrNothing operation ws c (r.map f) c' where
  closed := h.closed
  slot := h.slot
  done b hb := by
    cases r with
    | error e => cases hb
    | ok a => exact h.done a rfl
  undone e he := by
    cases r with
    | error e' => exact h.undone e (by cases he; rfl)
    | ok a => cases he

/-- What an operation leaves does not depend on what was read before it. -/
theorem AllOrNothing.after {operation : OperationKind} {ws : List Write} {c c' c'' : Connection}
    {r : Outcome α} (h : AllOrNothing operation ws c' r c'') (hclosed : c'.closed = c.closed)
    (hslot : c'.slot = c.slot) (hdata : Store.SameData c.store c'.store) (hquiet : Unfailed c c') :
    AllOrNothing operation ws c r c'' where
  closed := h.closed.trans hclosed
  slot := h.slot.trans hslot
  done a ha := ⟨(hdata.write ws).trans (h.done a ha).1, hquiet.trans (h.done a ha).2⟩
  undone e he := by
    obtain ⟨hdata', hreported⟩ := h.undone e he
    exact ⟨hdata.trans hdata', hreported.imp_left hquiet.trans⟩

/-- Fewer waiting failures are left only by a call that failed. -/
theorem callFailed_of_waiting {c c' : Connection}
    (h : c'.store.failures.length < c.store.failures.length) : CallFailed c c' := by
  intro hquiet
  exact absurd (congrArg List.length hquiet.waiting) (Nat.ne_of_lt h)

theorem callFailed_of_counted {c c' : Connection} {kind : CallKind}
    (h : c'.metrics.failures = c.metrics.failures.bump kind) : CallFailed c c' := by
  intro hquiet
  exact CallCounts.bump_ne c.metrics.failures kind (h.symm.trans hquiet.counted)

/-- An operation with a transaction of its own is all or nothing, and fails only if a call did. -/
theorem executeAlone_allOrNothing {body : Action Session α} {ws : List Write}
    (hbody : Session.Performs body ws) (operation : OperationKind) (label : String)
    (c : Connection) :
    AllOrNothing operation ws c (executeAlone operation label body c).1
        (executeAlone operation label body c).2 ∧
      ∀ e, (executeAlone operation label body c).1 = .error e →
        CallFailed c (executeAlone operation label body c).2 := by
  have hbegin := Store.sameData_takeFailure .start c.store
  rw [executeAlone, Store.beginTransaction, Action.bind_apply]
  rcases hr : Store.takeFailure .start c.store with ⟨e | _, store⟩ <;> rw [hr] at hbegin
  · exact ⟨.ofFailed rfl rfl hbegin,
      fun _ _ => callFailed_of_waiting (Store.takeFailure_error hr)⟩
  · obtain rfl := Store.takeFailure_ok hr
    have hunfinished : Session.Unfinished ⟨{ c.store with active := c.store.active + 1 },
        some ⟨∅, false⟩, c.metrics⟩ := .of_some rfl rfl
    obtain ⟨⟨made, -, hdid, hmade⟩, hunfailed, hfailed⟩ := hbody _ hunfinished
    simp only [Action.bind_apply, Action.modify, Action.pure_apply, thenCommit, session]
    rcases hb : body ⟨{ c.store with active := c.store.active + 1 }, some ⟨∅, false⟩, c.metrics⟩
      with ⟨e | a, s⟩ <;> rw [hb] at hdid hmade hunfailed hfailed
    · obtain ⟨ht, hdata⟩ := hdid
      obtain ⟨kind, hkind⟩ := hfailed e rfl
      obtain ⟨hgiven, -, hmetrics⟩ :=
        Session.rollback_givesUp ht (Staging.stageAll_finished ..) hdata
      refine ⟨.ofFailed rfl rfl hgiven, fun _ _ => ?_⟩
      exact callFailed_of_counted ((congrArg (·.failures) hmetrics).trans hkind)
    · obtain rfl := hmade a rfl
      obtain ⟨ht, hdata⟩ := hdid
      have hempty : Transaction.staged ⟨∅, false⟩ = SortedMap.ofList [] := rfl
      have hstaged := Staging.staged_stageAll_ofList hempty made
      rcases Session.commit_staged ht (Staging.stageAll_finished ..) hstaged hdata with
        ⟨e, s', hcommit, ht', hdata', hfewer⟩ | ⟨s', hcommit, hunfailed', hdata'⟩
      · obtain ⟨hgiven, hwaiting, -⟩ :=
          Session.rollback_givesUp ht' (Staging.stageAll_finished ..) hdata'
        simp only [hcommit]
        refine ⟨.ofFailed rfl rfl hgiven, fun _ _ => ?_⟩
        have hbefore := congrArg List.length (hunfailed a rfl).waiting
        exact callFailed_of_waiting (Nat.lt_of_le_of_lt hwaiting (hbefore ▸ hfewer))
      · have hall := (hunfailed a rfl).trans hunfailed'
        simp only [hcommit]
        exact ⟨⟨rfl, rfl, fun _ _ => ⟨hdata', hall.waiting, hall.counted⟩, fun _ he => by cases he⟩,
          fun _ he => by cases he⟩

/-- An operation with a transaction of its own fails exactly if one of its calls did. -/
theorem executeAlone_fails_iff {body : Action Session α} {ws : List Write}
    (hbody : Session.Performs body ws) (operation : OperationKind) (label : String)
    (c : Connection) :
    (∃ e, (executeAlone operation label body c).1 = .error e) ↔
      CallFailed c (executeAlone operation label body c).2 := by
  obtain ⟨hall, hfails⟩ := executeAlone_allOrNothing hbody operation label c
  refine ⟨fun ⟨e, he⟩ => hfails e he, fun hfailed => ?_⟩
  cases hr : (executeAlone operation label body c).1 with
  | error e => exact ⟨e, rfl⟩
  | ok a => exact absurd (hall.done a hr).2 hfailed

theorem execute_of_inactive {c : Connection} (hopen : c.closed = false)
    (hidle : c.slot.isActive = false) (policy : Policy) (operation : OperationKind) (label : String)
    (body : Action Session α) :
    execute policy operation label body c =
      if policy.transactional then executeAlone operation label body c
      else executeDirectly label body c := by
  rw [execute, if_neg (by simp [hopen])]
  cases hslot : c.slot with
  | active t =>
    rw [hslot] at hidle
    cases hidle
  | idle | committed | rolledBack => rfl

/-- An operation that leaves all of its writes or none on every connection without an explicit
transaction. -/
def Atomically (operation : OperationKind) (x : Action Connection α) (ws : List Write) : Prop :=
  ∀ c, c.slot.isActive = false → AllOrNothing operation ws c (x c).1 (x c).2

section Policy

variable {policy : Policy} (hpolicy : policy.transactional = true)

include hpolicy

theorem execute_atomically {body : Action Session α} {ws : List Write}
    (hbody : Session.Performs body ws) (operation : OperationKind) (label : String) :
    Atomically operation (execute policy operation label body) ws := by
  intro c hidle
  unfold execute
  split
  · exact ⟨rfl, rfl, fun _ hok => (by cases hok), fun _ _ => ⟨.refl _, .inl ⟨rfl, rfl⟩⟩⟩
  · cases hslot : c.slot with
    | active t =>
      rw [hslot] at hidle
      cases hidle
    | idle | committed | rolledBack =>
      dsimp only
      exact (executeAlone_allOrNothing hbody operation label c).1

theorem lookup_atomically (keys : List Key) (label : String) :
    Atomically .read (lookup policy keys label) [] :=
  execute_atomically hpolicy (Session.lookup_performs policy.limits keys) .read label

theorem runQuery_atomically (q : EntityQuery) : Atomically .read (runQuery policy q) [] :=
  execute_atomically hpolicy (Session.runQuery_performs q) .read q.describe

end Policy

theorem Atomically.pure (operation : OperationKind) (a : α) :
    Atomically operation (Pure.pure a) [] := by
  intro c _
  exact ⟨rfl, rfl, fun _ _ => ⟨.refl _, .refl c⟩, fun _ he => by cases he⟩

/-- Reading before an operation does not change what it is. -/
theorem Atomically.bind {operation : OperationKind} {x : Action Connection α}
    {f : α → Action Connection β} {ws : List Write} (h : Atomically operation x [])
    (hf : ∀ a, Atomically operation (f a) ws) : Atomically operation (x >>= f) ws := by
  intro c hidle
  obtain ⟨hclosed, hslot, hdone, hundone⟩ := h c hidle
  rw [Action.bind_apply]
  rcases hx : x c with ⟨e | a, c'⟩ <;> rw [hx] at hclosed hslot hdone hundone
  · exact ⟨hclosed, hslot, fun _ hok => (by cases hok), fun e he => hundone e (by cases he; rfl)⟩
  · exact (hf a c' (hslot ▸ hidle)).after hclosed hslot (hdone a rfl).1 (hdone a rfl).2

end Connection

end DocumentStore
