import DocumentStore.Proofs.Store.Calls
set_option autoImplicit false

/-!
# What a call does in a transaction

The same split as for calls of the store itself.  A finished transaction refuses every call; in an
unfinished one a call is let in by the store, and its effect is on the staged writes alone.
-/

namespace DocumentStore.Staging

theorem ensureActive_unfinished {g : Staging} (h : g.transaction.finished = false) :
    ensureActive g = (.ok (), g) := by
  simp [ensureActive, Action.bind_apply, Action.gets, h]

theorem ensureActive_finished {g : Staging} (h : g.transaction.finished = true) :
    ensureActive g = (.error .transactionFinished, g) := by
  simp [ensureActive, Action.bind_apply, Action.gets, Action.fail, h]

theorem documents_release (s : Store) (t : Transaction) : (s.release t).documents = s.documents := by
  unfold Store.release
  split <;> rfl

theorem documents_finish (g : Staging) : (finish g).store.documents = g.store.documents :=
  documents_release g.store g.transaction

theorem rollback_finished {g : Staging} (h : g.transaction.finished = true) :
    rollback g =
      match Store.takeFailure .rollback g.store with
      | (.error e, s) => (.error e, { g with store := s })
      | (.ok (), s) => (.error .transactionFinished, { g with store := s }) := by
  rw [rollback, Action.bind_apply, onStore, Action.onPart]
  rcases Store.takeFailure .rollback g.store with ⟨_ | _, s⟩
  · rfl
  · exact Action.bind_error (ensureActive_finished (g := { g with store := s }) h)

section Unfinished

variable {g : Staging} (h : g.transaction.finished = false)

include h

theorem lookup_unfinished (keys : List Key) :
    lookup keys g =
      match Store.admission .lookup keys.length g.store with
      | (.error e, s) => (.error e, { g with store := s })
      | (.ok (), s) =>
        (.ok (keys.map fun k => view g.transaction k (s.find? k)), { g with store := s }) := by
  rw [lookup, Action.bind_ok (ensureActive_unfinished h), Store.lookup_eq, Action.bind_apply,
    onStore, Action.onPart, Action.bind_apply]
  rcases Store.admission .lookup keys.length g.store with ⟨_ | _, s⟩
  · rfl
  · have hzip : keys.zip (keys.map s.find?) = keys.map fun k => (k, s.find? k) := by
      simpa using List.zip_map' (f := id) (g := s.find?) (l := keys)
    simp only [Action.gets, hzip, List.map_map, Function.comp_def]

theorem put_unfinished (batch : List Entity) :
    put batch g =
      match Store.admission .put batch.length g.store with
      | (.error e, s) => (.error e, { g with store := s })
      | (.ok (), s) => (.ok (), ⟨s, stageAll g.transaction (Write.ofEntities batch)⟩) := by
  rw [put, Action.bind_ok (ensureActive_unfinished h)]
  simp only [foldl_stage_entities]
  rw [Action.bind_apply, onStore, Action.onPart, Store.enter_guardLimit fun _ => rfl]
  rcases Store.admission .put batch.length g.store with ⟨_ | _, s⟩ <;> rfl

theorem delete_unfinished (keys : List Key) :
    delete keys g =
      match Store.admission .delete keys.length g.store with
      | (.error e, s) => (.error e, { g with store := s })
      | (.ok (), s) => (.ok (), ⟨s, stageAll g.transaction (Write.ofDeleted keys)⟩) := by
  rw [delete, Action.bind_ok (ensureActive_unfinished h)]
  simp only [foldl_stage_deleted]
  rw [Action.bind_apply, onStore, Action.onPart, Store.enter_guardLimit fun _ => rfl]
  rcases Store.admission .delete keys.length g.store with ⟨_ | _, s⟩ <;> rfl

theorem runQuery_unfinished (q : EntityQuery) :
    runQuery q g = ((Store.runQuery q g.store).1, { g with store := (Store.runQuery q g.store).2 }) := by
  rw [runQuery, Action.bind_ok (ensureActive_unfinished h), onStore, Action.onPart]

theorem commit_unfinished :
    commit g =
      match Store.takeFailure .commit g.store with
      | (.error e, s) => (.error e, { g with store := s })
      | (.ok (), s) =>
        (.ok (), finish { g with store := { s with documents := applyStaged s.documents g.transaction } }) := by
  rw [commit, Action.bind_ok (ensureActive_unfinished h), Action.bind_apply, onStore, Action.onPart]
  rcases Store.takeFailure .commit g.store with ⟨_ | _, s⟩ <;> rfl

theorem rollback_unfinished :
    rollback g =
      match Store.takeFailure .rollback g.store with
      | (.error e, s) => (.error e, { g with store := s })
      | (.ok (), s) => (.ok (), finish { g with store := s }) := by
  rw [rollback, Action.bind_apply, onStore, Action.onPart]
  rcases Store.takeFailure .rollback g.store with ⟨_ | _, s⟩
  · rfl
  · simp only
    rw [Action.bind_ok (ensureActive_unfinished (g := { g with store := s }) h)]
    rfl

end Unfinished

/-! ## What a call stages -/

/-- A call that stages writes if it succeeds, and leaves the store's data. -/
structure Stages {α : Type} (x : Action Staging α) (ws : List Write) : Prop where
  staged : ∀ g, g.transaction.finished = false →
    (x g).2.transaction = stageAll g.transaction (Write.onSuccess (x g).1 ws)
  sameData : ∀ g, g.transaction.finished = false → Store.SameData g.store (x g).2.store
  failures : ∀ g a, g.transaction.finished = false → (x g).1 = .ok a →
    (x g).2.store.failures = g.store.failures

theorem Stages.map {α β : Type} {x : Action Staging α} {ws : List Write} (h : Stages x ws)
    (f : α → β) : Stages (x >>= fun a => pure (f a)) ws := by
  constructor
  · intro g hg
    have hstaged := h.staged g hg
    rw [Action.bind_apply]
    rcases hx : x g with ⟨_ | _, g'⟩ <;> rw [hx] at hstaged <;> exact hstaged
  · intro g hg
    have hdata := h.sameData g hg
    rw [Action.bind_apply]
    rcases hx : x g with ⟨_ | _, g'⟩ <;> rw [hx] at hdata <;> exact hdata
  · intro g b hg
    have hfailures := h.failures g
    rw [Action.bind_apply]
    rcases hx : x g with ⟨e | a, g'⟩ <;> rw [hx] at hfailures
    · intro hok
      cases hok
    · intro _
      exact hfailures a hg rfl

/-- A call that is let in by the store, and whose effect is on the transaction. -/
theorem Stages.of_admission {α : Type} {x : Action Staging α} {kind : CallKind} {count : Nat}
    {ws : List Write} (answer : Store → Transaction → α)
    (h : ∀ g, g.transaction.finished = false → x g =
      match Store.admission kind count g.store with
      | (.error e, s) => (.error e, { g with store := s })
      | (.ok (), s) => (.ok (answer s g.transaction), ⟨s, stageAll g.transaction ws⟩)) :
    Stages x ws := by
  constructor
  · intro g hg
    rw [h g hg]
    rcases Store.admission kind count g.store with ⟨_ | _, s⟩ <;> rfl
  · intro g hg
    have hdata := Store.sameData_admission kind count g.store
    rw [h g hg]
    rcases hadmission : Store.admission kind count g.store with ⟨_ | _, s⟩ <;> rw [hadmission] at hdata <;>
      exact hdata
  · intro g a hg
    have hfailures := Store.failures_admission kind count g.store
    rw [h g hg]
    rcases hadmission : Store.admission kind count g.store with ⟨_ | _, s⟩ <;> rw [hadmission] at hfailures
    · intro hok
      cases hok
    · intro _
      exact hfailures rfl

theorem lookup_stages (keys : List Key) : Stages (lookup keys) [] :=
  .of_admission (fun s t => keys.map fun k => view t k (s.find? k)) fun _ hg =>
    lookup_unfinished hg keys

theorem put_stages (batch : List Entity) : Stages (put batch) (Write.ofEntities batch) :=
  .of_admission (fun _ _ => ()) fun _ hg => put_unfinished hg batch

theorem delete_stages (keys : List Key) : Stages (delete keys) (Write.ofDeleted keys) :=
  .of_admission (fun _ _ => ()) fun _ hg => delete_unfinished hg keys

theorem runQuery_stages (q : EntityQuery) : Stages (runQuery q) [] where
  staged g hg := by
    rw [runQuery_unfinished hg, Write.onSuccess_nil]
    rfl
  sameData g hg := by
    have hdata := (Store.runQuery_makes q).sameData g.store
    rw [Write.onSuccess_nil] at hdata
    rw [runQuery_unfinished hg]
    exact hdata
  failures g a hg := by
    rw [runQuery_unfinished hg]
    exact (Store.runQuery_makes q).failures g.store a

end DocumentStore.Staging
