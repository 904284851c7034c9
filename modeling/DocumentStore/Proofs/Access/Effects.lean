import DocumentStore.Access.Session
import DocumentStore.Proofs.Store.Staging
set_option autoImplicit false

/-!
# What the calls of an operation do

The calls of an operation make its writes in their order, on the store or in a transaction: all of
them if no call fails, and those of the calls before the first failing one otherwise.  `Performs`
says this of the calls, and is put together call by call.
-/

namespace DocumentStore.Session

variable {α β : Type} {s s' s'' : Session} {ws more : List Write}

/-- Whether the session's transaction, if it has one, can still be used. -/
def Unfinished (s : Session) : Prop := ∀ t, s.transaction = some t → t.finished = false

theorem Unfinished.of_none (h : s.transaction = none) : s.Unfinished := by
  intro t ht
  rw [h] at ht
  cases ht

theorem Unfinished.of_some {t : Transaction} (h : s.transaction = some t) (hf : t.finished = false) :
    s.Unfinished := by
  intro t' ht'
  obtain rfl := Option.some.inj (h.symm.trans ht')
  exact hf

/-- What writes lead to: they are staged if there is a transaction, and applied if there is none. -/
def Did (ws : List Write) (s s' : Session) : Prop :=
  match s.transaction with
  | none => s'.transaction = none ∧ Store.SameData (s.store.write ws) s'.store
  | some t => s'.transaction = some (Staging.stageAll t ws) ∧ Store.SameData s.store s'.store

namespace Did

theorem refl (s : Session) : Did [] s s := by
  unfold Did
  split
  · next hnone => exact ⟨hnone, .refl _⟩
  · next t ht => exact ⟨ht, .refl _⟩

theorem trans (h : Did ws s s') (h' : Did more s' s'') : Did (ws ++ more) s s'' := by
  unfold Did at h h' ⊢
  cases ht : s.transaction with
  | none =>
    rw [ht] at h
    obtain ⟨hnone, hdata⟩ := h
    rw [hnone] at h'
    obtain ⟨hnone', hdata'⟩ := h'
    refine ⟨hnone', ?_⟩
    rw [Store.write_append]
    exact (hdata.write more).trans hdata'
  | some t =>
    rw [ht] at h
    obtain ⟨hstaged, hdata⟩ := h
    rw [hstaged] at h'
    obtain ⟨hstaged', hdata'⟩ := h'
    refine ⟨?_, hdata.trans hdata'⟩
    rw [Staging.stageAll_append, hstaged']

theorem unfinished (h : Did ws s s') (hs : s.Unfinished) : s'.Unfinished := by
  unfold Did at h
  intro t' ht'
  split at h
  · rw [h.1] at ht'
    cases ht'
  · next t ht =>
    rw [h.1] at ht'
    obtain rfl := Option.some.inj ht'
    rw [Staging.stageAll_finished]
    exact hs t ht

end Did

/-- Whether no call failed: no waiting failure was used up, and no failed round trip counted. -/
structure Unfailed (s s' : Session) : Prop where
  waiting : s'.store.failures = s.store.failures
  counted : s'.metrics.failures = s.metrics.failures

theorem Unfailed.trans (h : Unfailed s s') (h' : Unfailed s' s'') : Unfailed s s'' where
  waiting := h'.waiting.trans h.waiting
  counted := h'.counted.trans h.counted

/-- What calls that were to make writes have done.  If they failed, one of them did, which is counted
as a failed round trip. -/
structure Performed (ws : List Write) (s : Session) (r : Outcome α) (s' : Session) : Prop where
  effect : ∃ done, done <+: ws ∧ Did done s s' ∧ ∀ a, r = .ok a → done = ws
  unfailed : ∀ a, r = .ok a → Unfailed s s'
  failed : ∀ e, r = .error e → ∃ kind, s'.metrics.failures = s.metrics.failures.bump kind

/-- Calls that make writes, and stop at the first failing call. -/
def Performs (body : Action Session α) (ws : List Write) : Prop :=
  ∀ s, s.Unfinished → Performed ws s (body s).1 (body s).2

namespace Performs

theorem pure (a : α) : Performs (Pure.pure a) [] := by
  intro s _
  exact ⟨⟨[], List.prefix_refl _, .refl s, fun _ _ => rfl⟩, fun _ _ => ⟨rfl, rfl⟩,
    fun e he => by cases he⟩

theorem bind {x : Action Session α} {f : α → Action Session β} (h : Performs x ws)
    (hf : ∀ a, Performs (f a) more) : Performs (x >>= f) (ws ++ more) := by
  intro s hs
  obtain ⟨⟨done, hamong, hdid, hdone⟩, hunfailed, hfailed⟩ := h s hs
  rw [Action.bind_apply]
  rcases hx : x s with ⟨e | a, s'⟩ <;> rw [hx] at hdid hdone hunfailed hfailed
  · exact ⟨⟨done, hamong.trans (List.prefix_append ..), hdid, fun _ hok => by cases hok⟩,
      fun _ hok => (by cases hok), fun _ _ => hfailed e rfl⟩
  · obtain rfl := hdone a rfl
    obtain ⟨⟨done', hamong', hdid', hdone'⟩, hunfailed', hfailed'⟩ := hf a s' (hdid.unfinished hs)
    refine ⟨⟨done ++ done', ?_, hdid.trans hdid', ?_⟩, ?_, ?_⟩
    · exact (List.prefix_append_right_inj done).mpr hamong'
    · intro b hok
      rw [hdone' b hok]
    · intro b hok
      exact (hunfailed a rfl).trans (hunfailed' b hok)
    · intro e he
      obtain ⟨kind, hkind⟩ := hfailed' e he
      exact ⟨kind, hkind.trans (congrArg (·.bump kind) (hunfailed a rfl).counted)⟩

/-- What is counted beside failures does not matter. -/
theorem modify {f : Metrics → Metrics} (hf : ∀ m, (f m).failures = m.failures) :
    Performs (Action.modify fun s => { s with metrics := f s.metrics }) [] := by
  intro s _
  refine ⟨⟨[], List.prefix_refl _, ?_, fun _ _ => rfl⟩, fun _ _ => ⟨rfl, hf s.metrics⟩,
    fun e he => by cases he⟩
  have hrefl := Did.refl s
  unfold Did at hrefl ⊢
  exact hrefl

theorem observed (m : Metrics) (kind : CallKind) (r : Outcome α) :
    (∀ a, r = .ok a → (m.observe kind r.isOk).failures = m.failures) ∧
      ∀ e, r = .error e → (m.observe kind r.isOk).failures = m.failures.bump kind := by
  cases r with
  | ok a => exact ⟨fun _ _ => rfl, fun e he => by cases he⟩
  | error e => exact ⟨fun a hok => (by cases hok), fun _ _ => rfl⟩

theorem onSuccess_among (r : Outcome α) (ws : List Write) : Write.onSuccess r ws <+: ws := by
  cases r with
  | ok a => exact List.prefix_refl _
  | error e => exact List.nil_prefix

/-- One call, on the store or in the transaction. -/
theorem call (kind : CallKind) {direct : Action Store α} {staged : Action Staging α}
    (hdirect : Store.Makes direct ws) (hstaged : Staging.Stages staged ws) :
    Performs (call kind direct staged) ws := by
  intro s hs
  unfold Session.call
  cases ht : s.transaction with
  | none =>
    have hdata := hdirect.sameData s.store
    have hfailures := hdirect.failures s.store
    rcases hr : direct s.store with ⟨r, store⟩
    rw [hr] at hdata hfailures
    obtain ⟨hok, herror⟩ := observed s.metrics kind r
    dsimp only at hdata hfailures ⊢
    refine ⟨⟨Write.onSuccess r ws, onSuccess_among r ws, ?_, ?_⟩, ?_, fun e he => ⟨kind, herror e he⟩⟩
    · unfold Did
      rw [ht]
      exact ⟨rfl, hdata⟩
    · intro a ha
      rw [show r = .ok a from ha]
      rfl
    · exact fun a ha => ⟨hfailures a ha, hok a ha⟩
  | some t =>
    have hfinished := hs t ht
    have htransaction := hstaged.staged ⟨s.store, t⟩ hfinished
    have hdata := hstaged.sameData ⟨s.store, t⟩ hfinished
    have hfailures := fun a => hstaged.failures ⟨s.store, t⟩ a hfinished
    rcases hr : staged ⟨s.store, t⟩ with ⟨r, g⟩
    rw [hr] at htransaction hdata hfailures
    obtain ⟨hok, herror⟩ := observed s.metrics kind r
    dsimp only at htransaction hdata hfailures ⊢
    rw [hr]
    refine ⟨⟨Write.onSuccess r ws, onSuccess_among r ws, ?_, ?_⟩, ?_, fun e he => ⟨kind, herror e he⟩⟩
    · unfold Did
      rw [ht]
      exact ⟨congrArg some htransaction, hdata⟩
    · intro a ha
      rw [show r = .ok a from ha]
      rfl
    · exact fun a ha => ⟨hfailures a ha, hok a ha⟩

end Performs

/-! ## The bulk calls -/

theorem lookupChunks_performs (parts : List (List Key)) : Performs (lookupChunks parts) [] := by
  induction parts with
  | nil => exact .pure _
  | cons keys rest ih =>
    exact (Performs.call .lookup (Store.lookup_makes keys) (Staging.lookup_stages keys)).bind
      fun _ => ih.bind fun _ => .pure _

theorem putChunks_performs (parts : List (List Entity)) :
    Performs (putChunks parts) (Write.ofEntities parts.flatten) := by
  induction parts with
  | nil => exact .pure ()
  | cons batch rest ih =>
    have hput := Performs.call .put (Store.put_makes batch) (Staging.put_stages batch)
    have hall := hput.bind fun _ => (Performs.modify (f := (·.accept batch.length))
      fun _ => rfl).bind fun _ => ih
    rw [List.nil_append, Write.ofEntities, Write.ofEntities, ← List.map_append] at hall
    exact hall

theorem deleteChunks_performs (parts : List (List Key)) :
    Performs (deleteChunks parts) (Write.ofDeleted parts.flatten) := by
  induction parts with
  | nil => exact .pure ()
  | cons keys rest ih =>
    have hdelete := Performs.call .delete (Store.delete_makes keys)
      (Staging.delete_stages keys)
    have hall := hdelete.bind fun _ => ih
    rw [Write.ofDeleted, Write.ofDeleted, ← List.map_append] at hall
    exact hall

theorem lookup_performs (limits : BatchLimits) (keys : List Key) :
    Performs (lookup limits keys) [] :=
  lookupChunks_performs _

/-- A bulk write makes its writes in order, however it is split. -/
theorem put_performs (limits : BatchLimits) (batch : List Entity) :
    Performs (put limits batch) (Write.ofEntities batch) := by
  have h := putChunks_performs (chunks limits.write batch)
  rw [flatten_chunks] at h
  exact h

theorem delete_performs (limits : BatchLimits) (keys : List Key) :
    Performs (delete limits keys) (Write.ofDeleted keys) := by
  have h := deleteChunks_performs (chunks limits.write keys)
  rw [flatten_chunks] at h
  exact h

theorem runQuery_performs (q : EntityQuery) : Performs (runQuery q) [] :=
  .call .query (Store.runQuery_makes q) (Staging.runQuery_stages q)

end DocumentStore.Session
