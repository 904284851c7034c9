import DocumentStore.Proofs.Store.Writes
set_option autoImplicit false

/-!
# What a call does to the store

Each call of the store is let in, or not, in the same way, and then has its effect.  `admission` is the
first half; it changes nothing but the waiting failures and the counters, and does not look at the
documents.  The equations below split every call into `admission` and its effect.
-/

namespace DocumentStore.Store

/-! ## Stores with the same data -/

/-- Two stores that differ at most in the failures that wait and the calls that were counted. -/
structure SameData (s s' : Store) : Prop where
  documents : s'.documents = s.documents
  limits : s'.limits = s.limits
  pageLimit : s'.pageLimit = s.pageLimit
  active : s'.active = s.active

namespace SameData

theorem refl (s : Store) : SameData s s := ⟨rfl, rfl, rfl, rfl⟩

theorem trans {s s' s'' : Store} (h : SameData s s') (h' : SameData s' s'') : SameData s s'' where
  documents := h'.documents.trans h.documents
  limits := h'.limits.trans h.limits
  pageLimit := h'.pageLimit.trans h.pageLimit
  active := h'.active.trans h.active

end SameData

theorem results_congr {s s' : Store} (h : s'.documents = s.documents) (q : EntityQuery) :
    s'.results q = s.results q := by
  rw [results, results, entities, entities, h]

theorem find?_congr {s s' : Store} (h : s'.documents = s.documents) : s'.find? = s.find? := by
  funext k
  rw [find?, find?, h]

/-! ## Admission -/

/-- How many items a call of a kind may carry; a query carries none. -/
def itemLimit? (s : Store) : CallKind → Option Nat
  | .lookup => some s.limits.read
  | .put => some s.limits.write
  | .delete => some s.limits.write
  | .query => none

/-- What a call goes through before it takes effect: it is counted, meets a waiting failure if there
is one, and is refused if it carries too many items. -/
def admission (kind : CallKind) (count : Nat) : Action Store Unit := fun s =>
  match enter kind s with
  | (.error e, s) => (.error e, s)
  | (.ok (), s) =>
    match s.itemLimit? kind with
    | some limit => guardLimit limit count s
    | none => (.ok (), s)

theorem admission_apply (kind : CallKind) (count : Nat) (s : Store) :
    admission kind count s =
      let counted := { s with calls := s.calls.bump kind }
      match s.failures.find? (·.1 = .call kind) with
      | some (_, message) =>
        (.error (.backend (FailurePoint.call kind).describe message),
          { counted with failures := s.failures.eraseP (·.1 = .call kind) })
      | none =>
        match s.itemLimit? kind with
        | some limit =>
          if limit < count then (.error (.batchLimitExceeded limit count), counted)
          else (.ok (), counted)
        | none => (.ok (), counted) := by
  simp only [admission, enter, Action.bind_apply, Action.modify, takeFailure]
  cases hf : s.failures.find? (·.1 = .call kind) with
  | some f => rfl
  | none =>
    cases kind <;> simp only [itemLimit?, guardLimit] <;> first | rfl | (split <;> rfl)

theorem takeFailure_of_nil {s : Store} (h : s.failures = []) (point : FailurePoint) :
    takeFailure point s = (.ok (), s) := by
  rw [takeFailure, h]
  rfl

theorem sameData_takeFailure (point : FailurePoint) (s : Store) :
    SameData s (takeFailure point s).2 := by
  unfold takeFailure
  split
  · exact ⟨rfl, rfl, rfl, rfl⟩
  · exact .refl s

theorem calls_takeFailure (point : FailurePoint) (s : Store) :
    (takeFailure point s).2.calls = s.calls := by
  unfold takeFailure
  split <;> rfl

theorem sameData_admission (kind : CallKind) (count : Nat) (s : Store) :
    SameData s (admission kind count s).2 := by
  rw [admission_apply]
  dsimp only
  split
  · exact ⟨rfl, rfl, rfl, rfl⟩
  · split
    · split <;> exact ⟨rfl, rfl, rfl, rfl⟩
    · exact ⟨rfl, rfl, rfl, rfl⟩

/-- Whether a call is let in does not depend on the documents. -/
theorem admission_withDocuments (kind : CallKind) (count : Nat) (s : Store)
    (documents : SortedMap Key Properties) :
    admission kind count { s with documents } =
      ((admission kind count s).1, { (admission kind count s).2 with documents }) := by
  have hlimit : itemLimit? { s with documents } kind = s.itemLimit? kind := by
    cases kind <;> rfl
  rw [admission_apply, admission_apply]
  dsimp only
  rw [hlimit]
  cases s.failures.find? (·.1 = .call kind) with
  | some f => rfl
  | none =>
    cases s.itemLimit? kind with
    | none => rfl
    | some limit =>
      dsimp only
      split <;> rfl

/-! ## Calls as admission and effect -/

theorem enter_guardLimit {kind : CallKind} {limit : Store → Nat}
    (h : ∀ s : Store, s.itemLimit? kind = some (limit s)) (count : Nat) :
    (enter kind >>= fun _ => Action.gets limit >>= fun most => guardLimit most count) =
      admission kind count := by
  funext s
  rw [Action.bind_apply, admission]
  rcases enter kind s with ⟨_ | _, s'⟩
  · rfl
  · simp only [h, Action.bind_apply, Action.gets]

theorem lookup_eq (keys : List Key) :
    lookup keys = admission .lookup keys.length >>= fun _ => Action.gets fun s => keys.map s.find? := by
  funext s
  rw [lookup, Action.bind_apply, Action.bind_apply, admission]
  rcases enter .lookup s with ⟨_ | _, s'⟩ <;> rfl

theorem put_eq (batch : List Entity) :
    put batch = admission .put batch.length >>= fun _ => Action.modify fun s =>
      s.write (Write.ofEntities batch) := by
  funext s
  simp only [put, foldl_put1]
  rw [Action.bind_apply, Action.bind_apply, admission]
  rcases enter .put s with ⟨_ | _, s'⟩ <;> rfl

theorem delete_eq (keys : List Key) :
    delete keys = admission .delete keys.length >>= fun _ => Action.modify fun s =>
      s.write (Write.ofDeleted keys) := by
  funext s
  simp only [delete, foldl_delete1]
  rw [Action.bind_apply, Action.bind_apply, admission]
  rcases enter .delete s with ⟨_ | _, s'⟩ <;> rfl

theorem runQuery_eq (q : EntityQuery) :
    runQuery q = admission .query 0 >>= fun _ => Action.ofOutcome (startOffset q) >>= fun offset =>
      Action.gets fun s => s.page q offset := by
  funext s
  rw [runQuery, Action.bind_apply, Action.bind_apply, admission]
  rcases enter .query s with ⟨_ | _, s'⟩ <;> rfl

/-! ## What a call leaves -/

theorem SameData.write {s s' : Store} (h : SameData s s') (ws : List Write) :
    SameData (s.write ws) (s'.write ws) where
  documents := by rw [Store.write, Store.write, h.documents]
  limits := h.limits
  pageLimit := h.pageLimit
  active := h.active

/-- A call that makes writes if it succeeds, and then used up no waiting failure. -/
structure Makes {α : Type} (x : Action Store α) (ws : List Write) : Prop where
  sameData : ∀ s, SameData (s.write (Write.onSuccess (x s).1 ws)) (x s).2
  failures : ∀ s a, (x s).1 = .ok a → (x s).2.failures = s.failures

theorem Makes.map {α β : Type} {x : Action Store α} {ws : List Write} (h : Makes x ws) (f : α → β) :
    Makes (x >>= fun a => pure (f a)) ws := by
  constructor
  · intro s
    have hdata := h.sameData s
    rw [Action.bind_apply]
    rcases hx : x s with ⟨_ | _, s'⟩ <;> rw [hx] at hdata <;> exact hdata
  · intro s b
    have hfailures := h.failures s
    rw [Action.bind_apply]
    rcases hx : x s with ⟨e | a, s'⟩ <;> rw [hx] at hfailures
    · intro hok
      cases hok
    · intro _
      exact hfailures a rfl

theorem failures_admission (kind : CallKind) (count : Nat) (s : Store)
    (h : (admission kind count s).1 = .ok ()) : (admission kind count s).2.failures = s.failures := by
  rw [admission_apply] at h ⊢
  dsimp only at h ⊢
  split at h
  · cases h
  · split
    · split <;> rfl
    · rfl

/-- A call that is let in, answers, and makes its writes if the answer is no failure. -/
theorem Makes.of_admission {α : Type} {x : Action Store α} {ws : List Write} (kind : CallKind)
    (count : Nat) (answer : Store → Outcome α)
    (h : ∀ s, x s =
      match admission kind count s with
      | (.error e, s) => (.error e, s)
      | (.ok (), s) => (answer s, s.write (Write.onSuccess (answer s) ws))) : Makes x ws := by
  constructor
  · intro s
    have hdata := sameData_admission kind count s
    rw [h s]
    rcases hadmission : admission kind count s with ⟨_ | _, s'⟩ <;> rw [hadmission] at hdata
    · exact hdata
    · exact hdata.write _
  · intro s a
    have hfailures := failures_admission kind count s
    rw [h s]
    rcases hadmission : admission kind count s with ⟨_ | _, s'⟩ <;> rw [hadmission] at hfailures
    · intro hok
      cases hok
    · intro _
      exact hfailures rfl

theorem lookup_makes (keys : List Key) : Makes (lookup keys) [] := by
  apply Makes.of_admission .lookup keys.length fun s => .ok (keys.map s.find?)
  intro s
  rw [lookup_eq, Action.bind_apply]
  rcases admission .lookup keys.length s with ⟨_ | _, s'⟩ <;> rfl

theorem put_makes (batch : List Entity) : Makes (put batch) (Write.ofEntities batch) := by
  apply Makes.of_admission .put batch.length fun _ => .ok ()
  intro s
  rw [put_eq, Action.bind_apply]
  rcases admission .put batch.length s with ⟨_ | _, s'⟩ <;> rfl

theorem delete_makes (keys : List Key) : Makes (delete keys) (Write.ofDeleted keys) := by
  apply Makes.of_admission .delete keys.length fun _ => .ok ()
  intro s
  rw [delete_eq, Action.bind_apply]
  rcases admission .delete keys.length s with ⟨_ | _, s'⟩ <;> rfl

theorem runQuery_makes (q : EntityQuery) : Makes (runQuery q) [] := by
  apply Makes.of_admission .query 0 fun s => (startOffset q).map (s.page q ·)
  intro s
  rw [runQuery_eq, Action.bind_apply]
  rcases admission .query 0 s with ⟨_ | _, s'⟩
  · rfl
  · dsimp only
    rw [Action.bind_apply, Action.ofOutcome]
    cases startOffset q <;> rfl

end DocumentStore.Store
