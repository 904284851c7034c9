import DocumentStore.Proofs.Access.Endings
import DocumentStore.Proofs.Access.Traffic
set_option autoImplicit false

/-!
# What the calls of operations come to

The body of an operation is the data calls that it makes, up to the first that fails.  `Session.Made`
says what the calls that succeeded have done: their writes are applied or staged, and the entities that
they put are counted.  Bodies that leave the same, and fail together, cannot be told apart by what the
operation leaves, so an operation can be followed as the list of its calls.
-/

namespace DocumentStore

/-! ## Sessions -/

/-- How many entities calls have put. -/
def DataCall.entities (calls : List DataCall) : Nat := (calls.map accepted).sum

@[simp] theorem DataCall.entities_nil : entities [] = 0 := rfl

@[simp] theorem DataCall.entities_append (calls more : List DataCall) :
    entities (calls ++ more) = entities calls + entities more := by
  rw [entities, List.map_append, List.sum_append, entities, entities]

/-- Whether nothing was counted beside round trips but a number of entities. -/
structure Metrics.Accepted (count : Nat) (m m' : Metrics) : Prop where
  committed : m'.committed = m.committed
  rolledBack : m'.rolledBack = m.rolledBack
  written : m'.written = m.written + count

theorem Metrics.Accepted.refl (m : Metrics) : m.Accepted 0 m := ⟨rfl, rfl, rfl⟩

theorem Metrics.Accepted.trans {count more : Nat} {m m' m'' : Metrics} (h : m.Accepted count m')
    (h' : m'.Accepted more m'') : m.Accepted (count + more) m'' where
  committed := h'.committed.trans h.committed
  rolledBack := h'.rolledBack.trans h.rolledBack
  written := by rw [h'.written, h.written, Nat.add_assoc]

theorem Metrics.written_record (m : Metrics) (committed : Bool) :
    (m.record committed).written = m.written := by
  cases committed <;> rfl

namespace Store

theorem documents_beginTransaction (s : Store) :
    (beginTransaction s).2.documents = s.documents := by
  have hdata := sameData_takeFailure .start s
  rw [beginTransaction, Action.bind_apply]
  rcases hr : takeFailure .start s with ⟨e | _, s'⟩ <;> rw [hr] at hdata <;> exact hdata.documents

end Store

namespace Session

/-- The calls of a list that are made and succeed. -/
def effective (calls : List DataCall) (s : Session) : List DataCall :=
  ((made calls s).filter (·.succeeded)).map (·.call)

/-- Whether calls were made, and the entities that they put were counted. -/
structure Made (calls : List DataCall) (s s' : Session) : Prop where
  did : Did (calls.flatMap DataCall.writes) s s'
  accepted : s.metrics.Accepted (DataCall.entities calls) s'.metrics

theorem Made.append {calls more : List DataCall} {s s' s'' : Session} (h : Made calls s s')
    (h' : Made more s' s'') : Made (calls ++ more) s s'' where
  did := by
    rw [List.flatMap_append]
    exact h.did.trans h'.did
  accepted := by
    rw [DataCall.entities_append]
    exact h.accepted.trans h'.accepted

/-- A call on the store or in a transaction makes its writes if it succeeds, and nothing is counted but
the round trip. -/
theorem call_did (c : DataCall) {s : Session} (hs : s.Unfinished) :
    Did (Write.onSuccess (call c.kind c.onStore c.inTransaction s).1 c.writes) s
        (call c.kind c.onStore c.inTransaction s).2 ∧
      (call c.kind c.onStore c.inTransaction s).2.metrics =
        s.metrics.observe c.kind (call c.kind c.onStore c.inTransaction s).1.isOk := by
  unfold call Did
  cases ht : s.transaction with
  | none => exact ⟨⟨rfl, c.onStore_makes.sameData s.store⟩, rfl⟩
  | some t =>
    have hstages := c.inTransaction_stages
    exact ⟨⟨congrArg some (hstages.staged ⟨s.store, t⟩ (hs t ht)),
      hstages.sameData ⟨s.store, t⟩ (hs t ht)⟩, rfl⟩

/-- The one step that counts entities. -/
theorem onSession_made (c : DataCall) {s : Session} (hs : s.Unfinished) :
    Made (if (c.onSession s).1.isOk then [c] else []) s (c.onSession s).2 := by
  obtain ⟨hdid, hmetrics⟩ := call_did c hs
  rw [DataCall.onSession, Action.bind_apply]
  rcases hr : call c.kind c.onStore c.inTransaction s with ⟨e | a, s'⟩ <;> rw [hr] at hdid hmetrics <;>
    have hcommitted := congrArg (·.committed) hmetrics <;>
    have hrolledBack := congrArg (·.rolledBack) hmetrics <;>
    have hwritten := congrArg (·.written) hmetrics
  · exact ⟨hdid, hcommitted, hrolledBack, hwritten⟩
  · refine ⟨?_, hcommitted, hrolledBack, congrArg (· + c.accepted) hwritten⟩
    show Did ([c].flatMap DataCall.writes) s s'
    rw [List.flatMap_singleton]
    exact hdid

/-- The calls that succeeded are what was made, whichever call ended them. -/
theorem makeAll_made (calls : List DataCall) {s : Session} (hs : s.Unfinished) :
    Made (effective calls s) s (makeAll calls s).2 := by
  induction calls generalizing s with
  | nil => exact ⟨.refl s, rfl, rfl, rfl⟩
  | cons c rest ih =>
    have hfirst := onSession_made c hs
    have hs' := hfirst.did.unfinished hs
    rw [makeAll, effective, made, Action.bind_apply]
    rcases hr : c.onSession s with ⟨e | a, s'⟩ <;> rw [hr] at hfirst hs'
    · exact hfirst
    · exact hfirst.append (ih hs')

theorem makeAll_performs (calls : List DataCall) :
    Performs (makeAll calls) (calls.flatMap DataCall.writes) := by
  induction calls with
  | nil => exact .pure ()
  | cons c rest ih => exact c.onSession_performs.bind fun _ => ih

/-- Whether calls failed shows in what was counted. -/
theorem Performed.isOk_iff {α : Type} {ws : List Write} {s s' : Session} {r : Outcome α}
    (h : Performed ws s r s') : r.isOk = true ↔ s'.metrics.failures = s.metrics.failures := by
  cases r with
  | ok a => exact iff_of_true rfl (h.unfailed a rfl).counted
  | error e =>
    obtain ⟨kind, hkind⟩ := h.failed e rfl
    refine iff_of_false (fun hok => by cases hok) fun hsame => ?_
    exact CallCounts.bump_ne s.metrics.failures kind (hkind.symm.trans hsame)

/-- Whether two bodies of operations leave the same and fail together. -/
def SameCourse {α β : Type} (body : Action Session α) (body' : Action Session β) : Prop :=
  ∀ s, s.Unfinished → (body s).2 = (body' s).2 ∧ (body s).1.isOk = (body' s).1.isOk

theorem SameCourse.of_performs {α β : Type} {body : Action Session α} {body' : Action Session β}
    {ws more : List Write} (h : Performs body ws) (h' : Performs body' more)
    (hsame : ∀ s, (body s).2 = (body' s).2) : SameCourse body body' := by
  intro s hs
  refine ⟨hsame s, Bool.eq_iff_iff.mpr ?_⟩
  rw [(h s hs).isOk_iff, (h' s hs).isOk_iff, hsame]

theorem documents_releaseTransaction (s : Session) :
    s.releaseTransaction.store.documents = s.store.documents := by
  unfold releaseTransaction
  split
  · rfl
  · exact Staging.documents_release ..

theorem metrics_releaseTransaction (s : Session) : s.releaseTransaction.metrics = s.metrics := by
  unfold releaseTransaction
  split <;> rfl

theorem metrics_onTransaction (x : Action Staging Unit) (s : Session) :
    (onTransaction x s).2.metrics = s.metrics := by
  unfold onTransaction
  split <;> rfl

theorem documents_rollback (s : Session) :
    (onTransaction Staging.rollback s).2.store.documents = s.store.documents := by
  unfold onTransaction
  split
  · rfl
  · exact Staging.documents_rollback _

/-- A commit applies the writes that a transaction holds, or fails and applies nothing. -/
theorem commit_cases {s : Session} {t : Transaction} {ws : List Write} (ht : s.transaction = some t)
    (hstaged : t.staged = SortedMap.ofList ws) :
    (∃ s', onTransaction Staging.commit s = (.ok (), s') ∧
        s'.store.documents = Write.applyAll s.store.documents ws) ∨
      ∃ e s', onTransaction Staging.commit s = (.error e, s') ∧
        s'.store.documents = s.store.documents := by
  rw [onTransaction, ht]
  dsimp only
  rcases Staging.commit_cases ⟨s.store, t⟩ with ⟨g, hcommit, hdocuments⟩ | ⟨e, g, hcommit, hdocuments⟩
  · rw [hcommit]
    exact .inl ⟨_, rfl, hdocuments.trans (Staging.applyStaged_eq_applyAll hstaged _)⟩
  · rw [hcommit]
    exact .inr ⟨e, _, rfl, hdocuments⟩

end Session

/-! ## Operations -/

namespace Connection

section Calls

variable {α β : Type} {c : Connection}

theorem thenCommit_congr {body : Action Session α} {body' : Action Session β}
    (h : Session.SameCourse body body') :
    Session.SameCourse (thenCommit body) (thenCommit body') := by
  intro s hs
  obtain ⟨hleft, hok⟩ := h s hs
  rw [thenCommit, thenCommit, Action.bind_apply, Action.bind_apply]
  rcases hb : body s with ⟨e | a, s'⟩ <;> rcases hb' : body' s with ⟨e' | a', s''⟩ <;>
    rw [hb, hb'] at hleft hok <;> obtain rfl : s' = s'' := hleft
  · exact ⟨rfl, rfl⟩
  · cases hok
  · cases hok
  · dsimp only
    rw [Action.bind_apply, Action.bind_apply]
    rcases Session.onTransaction Staging.commit s' with ⟨e | _, s''⟩ <;> exact ⟨rfl, rfl⟩

/-- What an operation leaves does not depend on what its calls answer, but on whether they fail. -/
theorem executeAlone_congr {body : Action Session α} {body' : Action Session β}
    (h : Session.SameCourse body body') (operation : OperationKind) (label : String) :
    (executeAlone operation label body c).2 = (executeAlone operation label body' c).2 := by
  unfold executeAlone
  rcases hr : Store.beginTransaction c.store with ⟨e | t, store⟩
  · rfl
  · have hunfinished : ({ c with store }.session (some t)).Unfinished :=
      .of_some rfl (Store.finished_of_beginTransaction hr)
    obtain ⟨hleft, hok⟩ := thenCommit_congr h _ hunfinished
    dsimp only
    rcases hb : thenCommit body ({ c with store }.session (some t)) with ⟨e | a, s⟩ <;>
      rcases hb' : thenCommit body' ({ c with store }.session (some t)) with ⟨e' | a', s'⟩ <;>
      rw [hb, hb'] at hleft hok <;> obtain rfl : s = s' := hleft
    · rw [hb, hb']
    · cases hok
    · cases hok
    · rw [hb, hb']

theorem execute_congr {body : Action Session α} {body' : Action Session β}
    (h : Session.SameCourse body body') (husable : c.slot.Usable) (policy : Policy)
    (operation : OperationKind) (label : String) :
    (execute policy operation label body c).2 = (execute policy operation label body' c).2 := by
  unfold execute
  split
  · rfl
  · cases ht : c.slot with
    | active t =>
      have hleft := (h (c.session (some t)) (.of_some rfl (husable t ht))).1
      dsimp only [executeIn]
      rw [hleft]
    | idle | committed | rolledBack =>
      dsimp only
      split
      · exact executeAlone_congr h operation label
      · have hleft := (h (c.session none) (.of_none rfl)).1
        dsimp only [executeDirectly]
        rw [hleft]

/-- Calls that are then committed, in a transaction that was just begun, take effect if that succeeds,
and otherwise are lost. -/
theorem thenCommit_makeAll_cases (calls : List DataCall) {s : Session}
    (ht : s.transaction = some ⟨∅, false⟩) :
    ∃ r s', thenCommit (Session.makeAll calls) s = (r, s') ∧
      s.metrics.Accepted (DataCall.entities (Session.effective calls s)) s'.metrics ∧
      s'.store.documents = match r with
        | .ok _ => Write.applyAll s.store.documents
            ((Session.effective calls s).flatMap DataCall.writes)
        | .error _ => s.store.documents := by
  obtain ⟨hdid, haccepted⟩ := Session.makeAll_made calls (.of_some ht rfl)
  rw [Session.Did, ht] at hdid
  obtain ⟨ht', hdata⟩ := hdid
  rw [thenCommit, Action.bind_apply]
  rcases hm : Session.makeAll calls s with ⟨e | _, s'⟩ <;> rw [hm] at haccepted ht' hdata
  · exact ⟨_, _, rfl, haccepted, hdata.documents⟩
  · have hmetrics := Session.metrics_onTransaction Staging.commit s'
    have hempty : Transaction.staged ⟨∅, false⟩ = SortedMap.ofList [] := rfl
    have hstaged := Staging.staged_stageAll_ofList hempty
      ((Session.effective calls s).flatMap DataCall.writes)
    dsimp only
    rw [Action.bind_apply]
    rcases Session.commit_cases ht' hstaged with
        ⟨s'', hcommit, hdocuments⟩ | ⟨e, s'', hcommit, hdocuments⟩ <;>
      rw [hcommit] at hmetrics ⊢
    · refine ⟨_, _, rfl, hmetrics ▸ haccepted, ?_⟩
      rw [← hdata.documents]
      exact hdocuments
    · exact ⟨_, _, rfl, hmetrics ▸ haccepted, hdocuments.trans hdata.documents⟩

end Calls

end Connection

end DocumentStore
