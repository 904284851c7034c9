import DocumentStore.Proofs.Access.Effects
set_option autoImplicit false

/-!
# Bulk writes that fail

A bulk write can fail at its first call only.  The first chunk is as large as any, so that the limit
lets in all chunks or refuses the first; and a failure that waits for a call strikes the first one.
A bulk write that has failed, in a transaction or not, has therefore left the data as it was.
-/

namespace DocumentStore

/-- No chunk is larger than the first. -/
theorem length_le_of_chunks_eq_cons {α : Type} {n : Nat} {l first : List α} {rest : List (List α)}
    (h : chunks n l = first :: rest) : ∀ part ∈ rest, part.length ≤ first.length := by
  cases l with
  | nil => simp [chunks] at h
  | cons a l =>
    rw [chunks] at h
    obtain ⟨rfl, rfl⟩ := List.cons.inj h
    intro part hpart
    have hmax := length_le_of_mem_chunks hpart
    have hpositive : l.drop (n - 1) ≠ [] := by
      intro hnil
      rw [hnil, chunks] at hpart
      cases hpart
    rw [ne_eq, List.drop_eq_nil_iff] at hpositive
    rw [List.length_cons, List.length_take]
    omega

/-! ## Calls that are let in -/

namespace Store

/-- Whether the store lets in every call of a kind with at most so many items. -/
structure Admits (kind : CallKind) (count : Nat) (s : Store) : Prop where
  waiting : s.failures.find? (·.1 = .call kind) = none
  room : ∀ limit, s.itemLimit? kind = some limit → count ≤ limit

theorem itemLimit?_congr {s s' : Store} (h : s'.limits = s.limits) (kind : CallKind) :
    s'.itemLimit? kind = s.itemLimit? kind := by
  cases kind <;> simp only [itemLimit?, h]

theorem Admits.congr {kind : CallKind} {count : Nat} {s s' : Store} (h : Admits kind count s)
    (hfailures : s'.failures = s.failures) (hlimits : s'.limits = s.limits) : Admits kind count s' where
  waiting := hfailures ▸ h.waiting
  room limit hlimit := h.room limit (itemLimit?_congr hlimits kind ▸ hlimit)

theorem admission_of_admits {kind : CallKind} {count most : Nat} {s : Store} (h : Admits kind most s)
    (hle : count ≤ most) :
    admission kind count s = (.ok (), { s with calls := s.calls.bump kind }) := by
  rw [admission_apply, h.waiting]
  dsimp only
  cases hlimit : s.itemLimit? kind with
  | none => rfl
  | some limit => exact if_neg (Nat.not_lt.mpr (Nat.le_trans hle (h.room limit hlimit)))

theorem admits_of_admission {kind : CallKind} {count : Nat} {s : Store}
    (h : (admission kind count s).1 = .ok ()) : Admits kind count s := by
  rw [admission_apply] at h
  dsimp only at h
  split at h
  · cases h
  · next hwaiting =>
    refine ⟨hwaiting, fun limit hlimit => ?_⟩
    rw [hlimit] at h
    dsimp only at h
    split at h
    · cases h
    · next hroom => exact Nat.le_of_not_lt hroom

/-- A call that is not let in uses up at most the failure that waited for it. -/
theorem failures_admission_or (kind : CallKind) (count : Nat) (s : Store) :
    (admission kind count s).2.failures = s.failures ∨
      (admission kind count s).2.failures = s.failures.eraseP (·.1 = .call kind) := by
  rw [admission_apply]
  dsimp only
  split
  · exact .inr rfl
  · split
    · split <;> exact .inl rfl
    · exact .inl rfl

end Store

namespace Session

/-! ## Writing calls -/

/-- Whether calls have left the data of the store, and the transaction if there is one, as they were,
and used up at most one failure that waited for such calls. -/
structure Refused (kind : CallKind) (s s' : Session) : Prop where
  transaction : s'.transaction = s.transaction
  sameData : Store.SameData s.store s'.store
  failures : s'.store.failures = s.store.failures ∨
    s'.store.failures = s.store.failures.eraseP (·.1 = .call kind)

/-- A writing call, on the store or in a transaction, that fails exactly if it is not let in. -/
structure Writes (kind : CallKind) (count : Nat) (ws : List Write) (direct : Action Store Unit)
    (staged : Action Staging Unit) : Prop where
  onStore : ∀ s, direct s = (match Store.admission kind count s with
    | (.error e, s) => (.error e, s)
    | (.ok (), s) => (.ok (), s.write ws))
  inTransaction : ∀ g, g.transaction.finished = false →
    staged g = (match Store.admission kind count g.store with
      | (.error e, s) => (.error e, { g with store := s })
      | (.ok (), s) => (.ok (), ⟨s, Staging.stageAll g.transaction ws⟩))
  finished : ∀ g, g.transaction.finished = true → staged g = (.error .transactionFinished, g)

theorem put_writes (batch : List Entity) :
    Writes .put batch.length (Write.ofEntities batch) (Store.put batch) (Staging.put batch) where
  onStore s := by
    rw [Store.put_eq, Action.bind_apply]
    rcases Store.admission .put batch.length s with ⟨_ | _, _⟩ <;> rfl
  inTransaction _ hg := Staging.put_unfinished hg batch
  finished _ hg := Action.bind_error (Staging.ensureActive_finished hg)

theorem delete_writes (keys : List Key) :
    Writes .delete keys.length (Write.ofDeleted keys) (Store.delete keys) (Staging.delete keys) where
  onStore s := by
    rw [Store.delete_eq, Action.bind_apply]
    rcases Store.admission .delete keys.length s with ⟨_ | _, _⟩ <;> rfl
  inTransaction _ hg := Staging.delete_unfinished hg keys
  finished _ hg := Action.bind_error (Staging.ensureActive_finished hg)

/-- A step of a bulk write: it is refused, or no larger step of its kind can be refused after it. -/
structure BulkStep (kind : CallKind) (count : Nat) (x : Action Session Unit) : Prop where
  cases : ∀ s, (∃ e s', x s = (.error e, s') ∧ s.Refused kind s') ∨
    ∃ s', x s = (.ok (), s') ∧ s'.Unfinished ∧ s'.store.Admits kind count
  admitted : ∀ s most, s.Unfinished → s.store.Admits kind most → count ≤ most →
    ∃ s', x s = (.ok (), s') ∧ s'.Unfinished ∧ s'.store.Admits kind most

theorem Writes.bulkStep {kind : CallKind} {count : Nat} {ws : List Write}
    {direct : Action Store Unit} {staged : Action Staging Unit}
    (h : Writes kind count ws direct staged) : BulkStep kind count (call kind direct staged) where
  cases s := by
    have hdata := Store.sameData_admission kind count s.store
    have hor := Store.failures_admission_or kind count s.store
    have hkept := Store.failures_admission kind count s.store
    have hadmits : (Store.admission kind count s.store).1 = .ok () → s.store.Admits kind count :=
      Store.admits_of_admission
    unfold call
    cases ht : s.transaction with
    | none =>
      dsimp only
      rw [h.onStore]
      rcases hr : Store.admission kind count s.store with ⟨e | _, store⟩ <;>
        rw [hr] at hdata hor hkept hadmits
      · exact .inl ⟨e, _, rfl, ht.symm, hdata, hor⟩
      · refine .inr ⟨_, rfl, fun t ht' => (by cases ht'), ?_⟩
        exact (hadmits rfl).congr (hkept rfl) hdata.limits
    | some t =>
      dsimp only
      cases hfinished : t.finished with
      | true =>
        rw [h.finished ⟨s.store, t⟩ hfinished]
        exact .inl ⟨_, _, rfl, ht.symm, .refl _, .inl rfl⟩
      | false =>
        rw [h.inTransaction ⟨s.store, t⟩ hfinished]
        rcases hr : Store.admission kind count s.store with ⟨e | _, store⟩ <;>
          rw [hr] at hdata hor hkept hadmits
        · exact .inl ⟨e, _, rfl, ht.symm, hdata, hor⟩
        · refine .inr ⟨_, rfl, ?_, (hadmits rfl).congr (hkept rfl) hdata.limits⟩
          intro t' ht'
          obtain rfl := Option.some.inj ht'
          exact (Staging.stageAll_finished ..).trans hfinished
  admitted s most hs hadmits hle := by
    have hadmission := Store.admission_of_admits hadmits hle
    unfold call
    cases ht : s.transaction with
    | none =>
      dsimp only
      rw [h.onStore, hadmission]
      exact ⟨_, rfl, fun t ht' => (by cases ht'), hadmits.congr rfl rfl⟩
    | some t =>
      dsimp only
      rw [h.inTransaction ⟨s.store, t⟩ (hs t ht), hadmission]
      refine ⟨_, rfl, ?_, hadmits.congr rfl rfl⟩
      intro t' ht'
      obtain rfl := Option.some.inj ht'
      exact (Staging.stageAll_finished ..).trans (hs t ht)

/-- What is counted when a step has succeeded does not matter. -/
theorem BulkStep.counted {kind : CallKind} {count : Nat} {x : Action Session Unit}
    (h : BulkStep kind count x) (f : Metrics → Metrics) :
    BulkStep kind count (x >>= fun _ => Action.modify fun s => { s with metrics := f s.metrics }) where
  cases s := by
    rcases h.cases s with ⟨e, s', hx, hrefused⟩ | ⟨s', hx, hs', hadmits⟩
    · exact .inl ⟨e, s', Action.bind_error hx, hrefused⟩
    · exact .inr ⟨_, Action.bind_ok hx, hs', hadmits⟩
  admitted s most hs hadmits hle := by
    obtain ⟨s', hx, hs', hadmits'⟩ := h.admitted s most hs hadmits hle
    exact ⟨_, Action.bind_ok hx, hs', hadmits'⟩

/-! ## Bulk writes -/

section Bulk

variable {α : Type} {kind : CallKind} {size : α → Nat} {f : α → Action Session Unit}

theorem forM_ok (hf : ∀ a, BulkStep kind (size a) (f a)) {parts : List α} {s : Session} {most : Nat}
    (hs : s.Unfinished) (hadmits : s.store.Admits kind most) (hmost : ∀ a ∈ parts, size a ≤ most) :
    (forM parts f s).1 = .ok () := by
  induction parts generalizing s with
  | nil => rfl
  | cons a rest ih =>
    obtain ⟨ha, hrest⟩ := List.forall_mem_cons.mp hmost
    obtain ⟨s', hx, hs', hadmits'⟩ := (hf a).admitted s most hs hadmits ha
    rw [List.forM_cons, Action.bind_ok hx]
    exact ih hs' hadmits' hrest

/-- If the first of several steps is the largest, it is the only one that can be refused. -/
theorem forM_refused (hf : ∀ a, BulkStep kind (size a) (f a)) {first : α} {rest : List α}
    (hlargest : ∀ a ∈ rest, size a ≤ size first) {s s' : Session} {e : StorageError}
    (h : forM (first :: rest) f s = (.error e, s')) : s.Refused kind s' := by
  rw [List.forM_cons] at h
  rcases (hf first).cases s with ⟨e', t, hx, hrefused⟩ | ⟨t, hx, ht, hadmits⟩
  · rw [Action.bind_error hx] at h
    cases h
    exact hrefused
  · rw [Action.bind_ok hx] at h
    have hok := forM_ok hf ht hadmits hlargest
    rw [h] at hok
    cases hok

end Bulk

theorem putChunks_eq_forM (parts : List (List Entity)) :
    putChunks parts = forM parts fun batch =>
      call .put (Store.put batch) (Staging.put batch) >>= fun _ =>
        Action.modify fun s => { s with metrics := s.metrics.accept batch.length } := by
  induction parts with
  | nil => rfl
  | cons batch rest ih => rw [putChunks, List.forM_cons, ih, bind_assoc]

theorem deleteChunks_eq_forM (parts : List (List Key)) :
    deleteChunks parts = forM parts fun keys =>
      call .delete (Store.delete keys) (Staging.delete keys) := by
  induction parts with
  | nil => rfl
  | cons keys rest ih => rw [deleteChunks, List.forM_cons, ih]

/-- A chunk is no larger than the list. -/
theorem length_le_length_of_mem_chunks {α : Type} {n : Nat} {l part : List α} (h : part ∈ chunks n l) :
    part.length ≤ min (max n 1) l.length := by
  have hall : part.length ≤ (chunks n l).flatten.length := (List.sublist_flatten_of_mem h).length_le
  rw [flatten_chunks] at hall
  exact Nat.le_min.mpr ⟨length_le_of_mem_chunks h, hall⟩

/-- A bulk write of entities is answered if the largest of its calls is let in. -/
theorem put_ok {limits : BatchLimits} {batch : List Entity} {s : Session} (hs : s.Unfinished)
    (h : s.store.Admits .put (min (max limits.write 1) batch.length)) :
    (put limits batch s).1 = .ok () := by
  rw [put, putChunks_eq_forM]
  exact forM_ok (fun part => (put_writes part).bulkStep.counted (·.accept part.length)) hs h
    fun _ => length_le_length_of_mem_chunks

/-- A bulk deletion is answered if the largest of its calls is let in. -/
theorem delete_ok {limits : BatchLimits} {keys : List Key} {s : Session} (hs : s.Unfinished)
    (h : s.store.Admits .delete (min (max limits.write 1) keys.length)) :
    (delete limits keys s).1 = .ok () := by
  rw [delete, deleteChunks_eq_forM]
  exact forM_ok (fun part => (delete_writes part).bulkStep) hs h
    fun _ => length_le_length_of_mem_chunks

/-- A bulk write of entities that has failed was refused as a whole. -/
theorem put_refused {limits : BatchLimits} {batch : List Entity} {s s' : Session} {e : StorageError}
    (h : put limits batch s = (.error e, s')) : s.Refused .put s' := by
  rw [put, putChunks_eq_forM] at h
  cases hparts : chunks limits.write batch with
  | nil =>
    rw [hparts] at h
    cases h
  | cons first rest =>
    rw [hparts] at h
    exact forM_refused (fun part => (put_writes part).bulkStep.counted (·.accept part.length))
      (length_le_of_chunks_eq_cons hparts) h

/-- A bulk deletion that has failed was refused as a whole. -/
theorem delete_refused {limits : BatchLimits} {keys : List Key} {s s' : Session} {e : StorageError}
    (h : delete limits keys s = (.error e, s')) : s.Refused .delete s' := by
  rw [delete, deleteChunks_eq_forM] at h
  cases hparts : chunks limits.write keys with
  | nil =>
    rw [hparts] at h
    cases h
  | cons first rest =>
    rw [hparts] at h
    exact forM_refused (fun part => (delete_writes part).bulkStep) (length_le_of_chunks_eq_cons hparts) h

end Session

end DocumentStore
