import DocumentStore.Proofs.Access.Atomic
import DocumentStore.Proofs.Access.Congruence
import DocumentStore.Proofs.Store.Agreement
set_option autoImplicit false

/-!
# Connections that agree on what is visible

The calls of an operation, whether they go straight to the store or to a transaction of their own,
run alike on connections of stores that agree, if they look at visible documents only.  The counters are
not compared: other operations move them.
-/

namespace DocumentStore

open DocumentStore.Action (Respects)

/-- Whether two connections are open, have no explicit transaction, and their stores agree. -/
structure Connection.Agree (visible : Entity → Prop) (c c' : Connection) : Prop where
  isOpen : c.closed = false
  isOpen' : c'.closed = false
  idle : c.slot.isActive = false
  idle' : c'.slot.isActive = false
  store : c.store.Agree visible c'.store

namespace Connection

variable {visible : Entity → Prop} {α : Type} {body : Action Session α}

theorem Parallel.respects_agree {x : Action Connection α} (h : Parallel (Store.Agree visible) x) :
    Respects (Agree visible) x := by
  intro c c' hc
  obtain ⟨r, store, store', metrics, metrics', hr, hr', hstore⟩ := h c c' hc.store
  rw [hr, hr']
  exact ⟨rfl, hc.isOpen, hc.isOpen', hc.idle, hc.idle', hstore⟩

/-- The calls of an operation under a handle's policy. -/
theorem execute_respects (hbody : Respects (Session.Related (Store.Agree visible)) body)
    (policy : Policy) (operation : OperationKind) (label : String) :
    Respects (Agree visible) (execute policy operation label body) := by
  intro c c' h
  rw [execute_of_inactive h.isOpen h.idle, execute_of_inactive h.isOpen' h.idle']
  split
  · exact (executeAlone_parallel (Store.Agree.congruence visible) hbody operation label).respects_agree
      c c' h
  · exact (executeDirectly_parallel hbody label).respects_agree c c' h

variable (policy : Policy) (label : String)

theorem lookup_respects {keys : List Key} (hkeys : ∀ k ∈ keys, k.Within visible) :
    Respects (Agree visible) (lookup policy keys label) :=
  execute_respects (Session.lookup_related (Store.Agree.congruence visible) policy.limits hkeys) policy
    .read label

theorem put_respects (batch : List Entity) :
    Respects (Agree visible) (put policy batch label) :=
  execute_respects (Session.putChunks_related (Store.Agree.congruence visible) _) policy .write label

theorem delete_respects (keys : List Key) :
    Respects (Agree visible) (delete policy keys label) :=
  execute_respects (Session.deleteChunks_related (Store.Agree.congruence visible) _) policy .write label

theorem runQuery_respects {q : EntityQuery} (hq : q.Within visible) :
    Respects (Agree visible) (runQuery policy q) :=
  execute_respects (Session.runQuery_related (Store.Agree.congruence visible) hq) policy .read _

end Connection

end DocumentStore
