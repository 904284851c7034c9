import DocumentStore.Access.Connection
import DocumentStore.Proofs.Store.Staging
set_option autoImplicit false

/-!
# What the end of a scope leaves of the documents

A commit that succeeds applies what the transaction has staged; one that fails, a rollback and a
scope that is given up apply nothing, whether or not the transaction could still be used.
-/

namespace DocumentStore

theorem Staging.documents_rollback (g : Staging) :
    (rollback g).2.store.documents = g.store.documents := by
  have hdata := Store.sameData_takeFailure .rollback g.store
  cases hfinished : g.transaction.finished with
  | true =>
    rw [rollback_finished hfinished]
    rcases hr : Store.takeFailure .rollback g.store with ⟨e | _, store⟩ <;> rw [hr] at hdata
    · exact hdata.documents
    · exact hdata.documents
  | false =>
    rw [rollback_unfinished hfinished]
    rcases hr : Store.takeFailure .rollback g.store with ⟨e | _, store⟩ <;> rw [hr] at hdata
    · exact hdata.documents
    · exact (documents_finish _).trans hdata.documents

/-- A commit applies the staged writes, or fails and applies nothing. -/
theorem Staging.commit_cases (g : Staging) :
    (∃ g', commit g = (.ok (), g') ∧
        g'.store.documents = applyStaged g.store.documents g.transaction) ∨
      ∃ e g', commit g = (.error e, g') ∧ g'.store.documents = g.store.documents := by
  have hdata := Store.sameData_takeFailure .commit g.store
  cases hfinished : g.transaction.finished with
  | true =>
    exact .inr ⟨_, g, Action.bind_error (ensureActive_finished hfinished), rfl⟩
  | false =>
    rw [commit_unfinished hfinished]
    rcases hr : Store.takeFailure .commit g.store with ⟨e | _, store⟩ <;> rw [hr] at hdata
    · exact .inr ⟨e, _, rfl, hdata.documents⟩
    · refine .inl ⟨_, rfl, ?_⟩
      rw [documents_finish]
      exact congrArg (applyStaged · g.transaction) hdata.documents

namespace Connection

/-- What the end of a scope may leave: the connection as closed as before, without a transaction. -/
structure Ended (c c' : Connection) : Prop where
  closed : c'.closed = c.closed
  slot : c'.slot = c.slot ∨ c'.slot.isActive = false

theorem commitScope_cases (c : Connection) :
    Ended c (commitScope c).2 ∧
      ((∃ t, c.slot = .active t ∧ (commitScope c).1 = .ok () ∧
          (commitScope c).2.store.documents = Staging.applyStaged c.store.documents t) ∨
        (commitScope c).1 ≠ .ok () ∧ (commitScope c).2.store.documents = c.store.documents) := by
  unfold commitScope
  cases hslot : c.slot with
  | active t =>
    dsimp only
    rcases Staging.commit_cases ⟨c.store, t⟩ with ⟨g, hcommit, hdocuments⟩ | ⟨e, g, hcommit, hdocuments⟩
    · rw [hcommit]
      exact ⟨⟨rfl, .inr rfl⟩, .inl ⟨t, rfl, rfl, (Staging.documents_release ..).trans hdocuments⟩⟩
    · rw [hcommit]
      refine ⟨⟨rfl, .inr rfl⟩, .inr ⟨fun h => (by cases h), ?_⟩⟩
      calc (g.rollback.2.store.release g.rollback.2.transaction).documents
        _ = g.rollback.2.store.documents := Staging.documents_release ..
        _ = g.store.documents := Staging.documents_rollback g
        _ = c.store.documents := hdocuments
  | idle | committed | rolledBack =>
    exact ⟨⟨rfl, .inl rfl⟩, .inr ⟨fun h => (by cases h), rfl⟩⟩

theorem rollbackScope_cases (c : Connection) :
    Ended c (rollbackScope c).2 ∧ (rollbackScope c).2.store.documents = c.store.documents := by
  unfold rollbackScope
  cases hslot : c.slot with
  | active t =>
    exact ⟨⟨rfl, .inr rfl⟩, (Staging.documents_release ..).trans (Staging.documents_rollback _)⟩
  | idle | committed | rolledBack => exact ⟨⟨rfl, .inl rfl⟩, rfl⟩

theorem dropScope_cases (c : Connection) :
    Ended c c.dropScope ∧ c.dropScope.store.documents = c.store.documents := by
  unfold dropScope
  split
  · exact ⟨⟨rfl, .inr rfl⟩, Staging.documents_release ..⟩
  · exact ⟨⟨rfl, .inl rfl⟩, rfl⟩

end Connection

end DocumentStore
