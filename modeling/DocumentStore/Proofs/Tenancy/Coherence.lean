import DocumentStore.Proofs.Access.Scopes
import DocumentStore.Proofs.Tenancy.Listing
set_option autoImplicit false

/-!
# Indexes over stores that change

An index reaches the store through its listing alone.  Here the listing is a parameter of the calls of
an index, so that they also run over a store with a log of how it was asked; with the log forgotten
these are the calls of `NamespaceIndex`.  After any calls, with any other store put in between them,
the index knows what was kept and what is in the log, and no more.
-/

namespace DocumentStore

/-- A listing fails as a call of the store. -/
theorem Store.listNamespaces_eq_error {s : Store} {e : StorageError}
    (h : (listNamespaces s).1 = .error e) :
    ∃ message, e = .backend FailurePoint.listNamespaces.describe message := by
  rw [listNamespaces, Action.bind_apply] at h
  rcases hr : takeFailure .listNamespaces s with ⟨e' | _, s'⟩ <;> rw [hr] at h
  · obtain rfl := Except.error.inj h
    exact takeFailure_backend hr
  · cases h

/-- An index over a source of listings. -/
structure IndexOver (σ : Type) where
  source : σ
  index : NamespaceIndex

/-- A call of an index. -/
inductive IndexCall where
  | keep (space : Namespace)
  | contains (space : Namespace)
  | validate (space : Namespace)
  | all
  deriving DecidableEq

/-- The answer to a call of an index. -/
inductive IndexAnswer where
  | done
  | known (answer : Bool)
  | spaces (listed : List Namespace)

/-- What a call of an index does. -/
def IndexCall.perform : IndexCall → Action Indexed IndexAnswer
  | .keep space => do
    Action.modify fun s => { s with index := s.index.keep space }
    return .done
  | .contains space => do return .known (← NamespaceIndex.contains space)
  | .validate space => do
    NamespaceIndex.validate space
    return .done
  | .all => do return .spaces (← NamespaceIndex.all)

/-! ## Calls over any source -/

namespace IndexOver

variable {σ : Type} (listing : Action σ (List Namespace))

/-- Remembers every namespace that the source lists. -/
def refresh : Action (IndexOver σ) Unit := fun s =>
  match listing s.source with
  | (.ok spaces, source) => (.ok (), { source, index := spaces.foldl .keep s.index })
  | (.error e, source) => (.error (e.withContext "listing namespaces"), { s with source })

/-- Whether a namespace is known, possibly after asking the source. -/
def contains (space : Namespace) : Action (IndexOver σ) Bool := do
  if (← Action.gets (·.index.knows space)) then return true
  else
    refresh listing
    Action.gets (·.index.knows space)

/-- Fails unless the namespace is known. -/
def validate (space : Namespace) : Action (IndexOver σ) Unit := do
  if !(← contains listing space) then Action.fail (.namespaceNotFound space.name)

/-- Every namespace known after asking the source, ascending. -/
def all : Action (IndexOver σ) (List Namespace) := do
  refresh listing
  Action.gets (·.index.toList)

/-- What a call of an index over the source does. -/
def perform : IndexCall → Action (IndexOver σ) IndexAnswer
  | .keep space => do
    Action.modify fun s => { s with index := s.index.keep space }
    return .done
  | .contains space => do return .known (← contains listing space)
  | .validate space => do
    validate listing space
    return .done
  | .all => do return .spaces (← all listing)

/-- The store and the index, of a source that holds a store. -/
def indexed (store : σ → Store) (s : IndexOver σ) : Indexed := ⟨store s.source, s.index⟩

/-- Whether an action over a source is one of a store and its index, with the rest of the source
forgotten. -/
def Projects {α : Type} (store : σ → Store) (x : Action (IndexOver σ) α) (y : Action Indexed α) :
    Prop :=
  ∀ s, y (s.indexed store) = ((x s).1, (x s).2.indexed store)

namespace Projects

variable {α β : Type} {store : σ → Store} {x : Action (IndexOver σ) α} {y : Action Indexed α}
  {f : α → Action (IndexOver σ) β} {g : α → Action Indexed β}

theorem bind (h : Projects store x y) (hf : ∀ a, Projects store (f a) (g a)) :
    Projects store (x >>= f) (y >>= g) := by
  intro s
  rw [Action.bind_apply, Action.bind_apply, h s]
  rcases x s with ⟨e | a, s'⟩
  · rfl
  · exact hf a s'

variable {listing} (hlisting : ∀ s, Store.listNamespaces (store s) = ((listing s).1, store (listing s).2))

include hlisting

theorem refresh : Projects store (IndexOver.refresh listing) NamespaceIndex.refresh := by
  intro s
  have hlisted : Store.listNamespaces (s.indexed store).store =
      ((listing s.source).1, store (listing s.source).2) := hlisting s.source
  rw [IndexOver.refresh, NamespaceIndex.refresh, hlisted]
  rcases listing s.source with ⟨e | spaces, source⟩ <;> rfl

theorem contains (space : Namespace) :
    Projects store (IndexOver.contains listing space) (NamespaceIndex.contains space) := by
  refine bind (fun _ => rfl) fun known => ?_
  cases known with
  | true => exact fun _ => rfl
  | false => exact (refresh hlisting).bind fun _ _ => rfl

theorem validate (space : Namespace) :
    Projects store (IndexOver.validate listing space) (NamespaceIndex.validate space) := by
  refine (contains hlisting space).bind fun known => ?_
  cases known <;> exact fun _ => rfl

theorem all : Projects store (IndexOver.all listing) NamespaceIndex.all :=
  (refresh hlisting).bind fun _ _ => rfl

theorem perform (call : IndexCall) :
    Projects store (IndexOver.perform listing call) call.perform := by
  cases call with
  | keep space => exact fun _ => rfl
  | contains space => exact (contains hlisting space).bind fun _ _ => rfl
  | validate space => exact (validate hlisting space).bind fun _ _ => rfl
  | all => exact (all hlisting).bind fun _ _ => rfl

end Projects

end IndexOver

/-! ## A log of listings -/

/-- A store with the answers that its listings had so far. -/
structure LoggedStore where
  store : Store
  listings : List (Outcome (List Namespace))

/-- Lists the namespaces of the store, and logs that. -/
def LoggedStore.listing : Action LoggedStore (List Namespace) := fun s =>
  match Store.listNamespaces s.store with
  | (r, store) => (r, ⟨store, s.listings ++ [r]⟩)

/-- A call of an index, or another store in the place of the one that it asks. -/
inductive IndexEvent where
  | call (c : IndexCall)
  | replace (store : Store)

namespace IndexEvent

/-- What becomes of a store and its index. -/
def apply (s : Indexed) : IndexEvent → Indexed
  | .call c => (c.perform s).2
  | .replace store => { s with store }

/-- The same, with a log. -/
def applyLogged (s : IndexOver LoggedStore) : IndexEvent → IndexOver LoggedStore
  | .call c => (IndexOver.perform LoggedStore.listing c s).2
  | .replace store => { s with source := { s.source with store } }

/-- The store and its index after events that began with an index that knew nothing. -/
def run (store : Store) (events : List IndexEvent) : Indexed := events.foldl apply ⟨store, .empty⟩

/-- The same, with a log. -/
def runLogged (store : Store) (events : List IndexEvent) : IndexOver LoggedStore :=
  events.foldl applyLogged ⟨⟨store, []⟩, .empty⟩

end IndexEvent

namespace LoggedIndex

open IndexOver LoggedStore

theorem listing_projects (s : LoggedStore) :
    Store.listNamespaces s.store = ((listing s).1, (listing s).2.store) := rfl

theorem indexed_runLogged (store : Store) (events : List IndexEvent) :
    (IndexEvent.runLogged store events).indexed (·.store) = IndexEvent.run store events := by
  have hevents : ∀ s : IndexOver LoggedStore, (events.foldl IndexEvent.applyLogged s).indexed (·.store) =
      events.foldl IndexEvent.apply (s.indexed (·.store)) := by
    induction events with
    | nil => exact fun _ => rfl
    | cons event rest ih =>
      intro s
      rw [List.foldl_cons, List.foldl_cons, ih]
      cases event with
      | replace store => rfl
      | call c =>
        have hcall := Projects.perform listing_projects c s
        rw [IndexEvent.apply, hcall]
        rfl
  exact hevents _

/-- Whether an index has learned namespaces that were kept, and what was heard from listings. -/
structure Learned (kept : List Namespace) (heard : List (Outcome (List Namespace)))
    (s s' : IndexOver LoggedStore) : Prop where
  listings : s'.source.listings = s.source.listings ++ heard
  knows : ∀ space, s'.index.knows space = true ↔
    s.index.knows space = true ∨ space ∈ kept ∨ ∃ spaces, .ok spaces ∈ heard ∧ space ∈ spaces

namespace Learned

variable {kept more : List Namespace} {heard heard' : List (Outcome (List Namespace))}
  {s s' s'' : IndexOver LoggedStore}

theorem refl (s : IndexOver LoggedStore) : Learned [] [] s s :=
  ⟨(List.append_nil _).symm, fun space => by simp⟩

theorem trans (h : Learned kept heard s s') (h' : Learned more heard' s' s'') :
    Learned (kept ++ more) (heard ++ heard') s s'' where
  listings := by rw [h'.listings, h.listings, List.append_assoc]
  knows space := by
    rw [h'.knows, h.knows]
    simp only [List.mem_append, or_and_right, exists_or]
    rw [or_assoc, or_or_or_comm]

end Learned

/-- A refresh learns what is in the store, unless the listing fails. -/
theorem refresh_learned (s : IndexOver LoggedStore) :
    Learned [] [(Store.listNamespaces s.source.store).1] s (refresh listing s).2 := by
  unfold refresh listing
  rcases Store.listNamespaces s.source.store with ⟨e | spaces, store⟩
  · exact ⟨rfl, fun space => by simp⟩
  · refine ⟨rfl, fun space => (NamespaceIndex.knows_foldl_keep ..).trans ?_⟩
    simp [or_comm]

theorem contains_known {space : Namespace} {s : IndexOver LoggedStore}
    (h : s.index.knows space = true) : contains listing space s = (.ok true, s) := by
  rw [contains, Action.bind_apply, Action.gets]
  simp only [h, if_true]
  rfl

/-- What is not known is known after a refresh, or not at all. -/
theorem contains_unknown {space : Namespace} {s : IndexOver LoggedStore}
    (h : s.index.knows space = false) :
    contains listing space s =
      ((refresh listing s).1.map fun _ => (refresh listing s).2.index.knows space,
        (refresh listing s).2) := by
  rw [contains, Action.bind_apply, Action.gets]
  simp only [h, Bool.false_eq_true, if_false]
  rw [Action.bind_apply]
  rcases refresh listing s with ⟨e | _, s'⟩ <;> rfl

theorem validate_eq (space : Namespace) (s : IndexOver LoggedStore) :
    validate listing space s =
      ((contains listing space s).1 >>= fun known =>
        if known then .ok () else .error (.namespaceNotFound space.name),
        (contains listing space s).2) := by
  rw [validate, Action.bind_apply]
  rcases contains listing space s with ⟨e | known, s'⟩
  · rfl
  · cases known <;> rfl

theorem all_eq (s : IndexOver LoggedStore) :
    all listing s =
      ((refresh listing s).1.map fun _ => (refresh listing s).2.index.toList,
        (refresh listing s).2) := by
  rw [all, Action.bind_apply]
  rcases refresh listing s with ⟨e | _, s'⟩ <;> rfl

/-! ## Runs -/

/-- The namespaces that an event keeps. -/
def kept : IndexEvent → List Namespace
  | .call (.keep space) => [space]
  | _ => []

theorem perform_learned (call : IndexCall) (s : IndexOver LoggedStore) :
    ∃ heard, Learned (kept (.call call)) heard s (perform listing call s).2 := by
  have hcontains (space : Namespace) : ∃ heard, Learned [] heard s (contains listing space s).2 := by
    cases hknown : s.index.knows space with
    | true =>
      rw [contains_known hknown]
      exact ⟨_, .refl s⟩
    | false =>
      rw [contains_unknown hknown]
      exact ⟨_, refresh_learned s⟩
  cases call with
  | keep space =>
    refine ⟨[], (List.append_nil _).symm, fun other => ?_⟩
    refine (NamespaceIndex.knows_keep ..).trans ?_
    simp [kept, or_comm]
  | contains space =>
    rw [perform, Action.snd_bind_pure]
    exact hcontains space
  | validate space =>
    rw [perform, Action.snd_bind_pure, validate_eq]
    exact hcontains space
  | all =>
    rw [perform, Action.snd_bind_pure, all_eq]
    exact ⟨_, refresh_learned s⟩

theorem apply_learned (event : IndexEvent) (s : IndexOver LoggedStore) :
    ∃ heard, Learned (kept event) heard s (event.applyLogged s) := by
  cases event with
  | call c => exact perform_learned c s
  | replace store =>
    exact ⟨[], (List.append_nil _).symm, fun space => by simp [kept, IndexEvent.applyLogged]⟩

theorem foldl_learned (events : List IndexEvent) (s : IndexOver LoggedStore) :
    ∃ heard, Learned (events.flatMap kept) heard s (events.foldl IndexEvent.applyLogged s) := by
  induction events generalizing s with
  | nil => exact ⟨[], .refl s⟩
  | cons event rest ih =>
    obtain ⟨heard, hfirst⟩ := apply_learned event s
    obtain ⟨heard', hrest⟩ := ih (event.applyLogged s)
    exact ⟨heard ++ heard', hfirst.trans hrest⟩

theorem mem_flatMap_kept {events : List IndexEvent} {space : Namespace} :
    space ∈ events.flatMap kept ↔ .call (.keep space) ∈ events := by
  rw [List.mem_flatMap]
  constructor
  · rintro ⟨event, hmem, hspace⟩
    unfold kept at hspace
    split at hspace
    · obtain rfl := List.mem_singleton.mp hspace
      exact hmem
    · cases hspace
  · exact fun hmem => ⟨_, hmem, List.mem_singleton.mpr rfl⟩

/-! ## Answers -/

/-- Whether a call has asked the store once, and has left the index as it was if that failed. -/
structure AskedOnce (s s' : IndexOver LoggedStore) : Prop where
  logged : s'.source.listings = s.source.listings ++ [(Store.listNamespaces s.source.store).1]
  failed : ∀ e, (Store.listNamespaces s.source.store).1 = .error e → s'.index = s.index

/-- How an index answers that has kept namespaces and logged its listings. -/
structure Coherent (kept : Namespace → Prop) (s : IndexOver LoggedStore) : Prop where
  /-- What is known was kept or listed, and all of that is known. -/
  knows : ∀ space, s.index.knows space = true ↔
    kept space ∨ ∃ spaces, .ok spaces ∈ s.source.listings ∧ space ∈ spaces
  /-- For what is known the store is not asked. -/
  hit : ∀ space, s.index.knows space = true → contains listing space s = (.ok true, s)
  /-- For what is not known the store is asked once, and has the answer. -/
  miss : ∀ space, s.index.knows space = false →
    AskedOnce s (contains listing space s).2 ∧
      (contains listing space s).1 =
        match (Store.listNamespaces s.source.store).1 with
        | .ok _ => .ok (decide (∃ e ∈ s.source.store.entities, e.key.space = space))
        | .error e => .error (e.withContext "listing namespaces")
  /-- What is contained is valid, and what is not is not found. -/
  validates : ∀ space,
    (validate listing space s).2 = (contains listing space s).2 ∧
      ((validate listing space s).1 = .ok () ↔ (contains listing space s).1 = .ok true) ∧
      ((validate listing space s).1 = .error (.namespaceNotFound space.name) ↔
        (contains listing space s).1 = .ok false)
  /-- All that is known or holds data is listed in ascending order, each once. -/
  lists : AskedOnce s (all listing s).2 ∧
    match (Store.listNamespaces s.source.store).1 with
    | .ok _ => ∃ spaces, (all listing s).1 = .ok spaces ∧
        spaces.Pairwise (fun a b => a.name < b.name) ∧
        ∀ space, space ∈ spaces ↔ s.index.knows space = true ∨
          ∃ e ∈ s.source.store.entities, e.key.space = space
    | .error e => (all listing s).1 = .error (e.withContext "listing namespaces")

/-- A refresh asks once.  If the listing succeeds, what holds data is known afterwards. -/
theorem refresh_cases (s : IndexOver LoggedStore) :
    AskedOnce s (refresh listing s).2 ∧
      ((∃ spaces, (Store.listNamespaces s.source.store).1 = .ok spaces ∧
          (refresh listing s).1 = .ok () ∧ ∀ space, (refresh listing s).2.index.knows space = true ↔
            s.index.knows space = true ∨ ∃ e ∈ s.source.store.entities, e.key.space = space) ∨
        ∃ message, (Store.listNamespaces s.source.store).1 =
            .error (.backend FailurePoint.listNamespaces.describe message) ∧
          (refresh listing s).1 =
            .error (.backend ("listing namespaces; " ++ FailurePoint.listNamespaces.describe)
              message)) := by
  have hlearned := refresh_learned s
  rcases hr : Store.listNamespaces s.source.store with ⟨e | spaces, store⟩
  · obtain ⟨message, rfl⟩ := Store.listNamespaces_eq_error (congrArg Prod.fst hr)
    refine ⟨⟨hlearned.listings, fun _ _ => ?_⟩, .inr ⟨message, rfl, ?_⟩⟩
    · rw [refresh, listing, hr]
    · rw [refresh, listing, hr]
      rfl
  · have hlisted := Store.listNamespaces_eq (congrArg Prod.fst hr)
    rw [hlisted] at hr
    cases hr
    refine ⟨⟨hlearned.listings, fun e he => ?_⟩, .inl ⟨_, rfl, ?_, fun space => ?_⟩⟩
    · rw [hlisted] at he
      cases he
    · rw [refresh, listing, hlisted]
    · rw [hlearned.knows, hlisted, ← Store.mem_namespaces_iff]
      simp

/-- Asked about a namespace, an index answers, or tells of the listing that failed. -/
theorem contains_cases (space : Namespace) (s : IndexOver LoggedStore) :
    (∃ known, (contains listing space s).1 = .ok known) ∨
      ∃ context message, (contains listing space s).1 = .error (.backend context message) := by
  cases hknown : s.index.knows space with
  | true =>
    rw [contains_known hknown]
    exact .inl ⟨true, rfl⟩
  | false =>
    rw [contains_unknown hknown]
    rcases (refresh_cases s).2 with ⟨spaces, -, hok, -⟩ | ⟨message, -, herror⟩
    · rw [hok]
      exact .inl ⟨_, rfl⟩
    · rw [herror]
      exact .inr ⟨_, message, rfl⟩

theorem coherent_of_knows {kept : Namespace → Prop} {s : IndexOver LoggedStore}
    (h : ∀ space, s.index.knows space = true ↔
      kept space ∨ ∃ spaces, .ok spaces ∈ s.source.listings ∧ space ∈ spaces) : Coherent kept s where
  knows := h
  hit _ := contains_known
  miss space hunknown := by
    obtain ⟨hasked, hcases⟩ := refresh_cases s
    rw [contains_unknown hunknown]
    refine ⟨hasked, ?_⟩
    rcases hcases with ⟨spaces, hr, hok, hknows⟩ | ⟨message, hr, herror⟩
    · have hdata := hknows space
      rw [hunknown, or_iff_right Bool.false_ne_true] at hdata
      rw [hr, hok]
      exact congrArg Except.ok (Bool.eq_iff_iff.mpr (hdata.trans decide_eq_true_iff.symm))
    · rw [hr, herror]
      rfl
  validates space := by
    rw [validate_eq]
    refine ⟨rfl, ?_⟩
    rcases contains_cases space s with ⟨known, hr⟩ | ⟨context, message, hr⟩ <;> rw [hr]
    · cases known with
      | true => exact ⟨iff_of_true rfl rfl, ⟨fun h => (by cases h), fun h => (by cases h)⟩⟩
      | false => exact ⟨⟨fun h => (by cases h), fun h => (by cases h)⟩, iff_of_true rfl rfl⟩
    · exact ⟨⟨fun h => (by cases h), fun h => (by cases h)⟩, fun h => (by cases h),
        fun h => (by cases h)⟩
  lists := by
    obtain ⟨hasked, hcases⟩ := refresh_cases s
    rw [all_eq]
    refine ⟨hasked, ?_⟩
    rcases hcases with ⟨spaces, hr, hok, hknows⟩ | ⟨message, hr, herror⟩
    · rw [hr, hok]
      refine ⟨_, rfl, NamespaceIndex.toList_ascending _, fun space => ?_⟩
      rw [NamespaceIndex.mem_toList, hknows]
    · rw [hr, herror]
      rfl

end LoggedIndex

/-- Over a store that is replaced by others as often as one likes, and whose listings may fail, an index
is coherent with what it kept and with the log of its listings, and never forgets.  The calls over the
store with a log are those of the index, and so are their runs, but for the log. -/
theorem NamespaceIndex.coherent (store : Store) (events : List IndexEvent) :
    (∀ space, IndexOver.Projects (·.store) (IndexOver.contains LoggedStore.listing space)
        (NamespaceIndex.contains space) ∧
      IndexOver.Projects (·.store) (IndexOver.validate LoggedStore.listing space)
        (NamespaceIndex.validate space)) ∧
    IndexOver.Projects (·.store) (IndexOver.all LoggedStore.listing) NamespaceIndex.all ∧
    (IndexEvent.runLogged store events).indexed (·.store) = IndexEvent.run store events ∧
    LoggedIndex.Coherent (fun space => .call (.keep space) ∈ events)
      (IndexEvent.runLogged store events) ∧
    ∀ more space, (IndexEvent.run store events).index.knows space = true →
      (IndexEvent.run store (events ++ more)).index.knows space = true := by
  have hproject := LoggedIndex.indexed_runLogged store
  have hlisting := LoggedIndex.listing_projects
  refine ⟨fun space => ⟨.contains hlisting space, .validate hlisting space⟩, .all hlisting,
    hproject events, ?_, fun more space hknown => ?_⟩
  · obtain ⟨heard, hlistings, hknows⟩ := LoggedIndex.foldl_learned events ⟨⟨store, []⟩, .empty⟩
    refine LoggedIndex.coherent_of_knows fun space => ?_
    rw [IndexEvent.runLogged, hknows, hlistings, LoggedIndex.mem_flatMap_kept]
    exact or_iff_right Bool.false_ne_true
  · obtain ⟨heard, -, hknows⟩ :=
      LoggedIndex.foldl_learned more (IndexEvent.runLogged store events)
    rw [← hproject] at hknown ⊢
    have hmore := (hknows space).mpr (.inl hknown)
    rw [IndexEvent.runLogged, List.foldl_append]
    exact hmore

/-- A namespace is kept, another one is found, and then the data is gone and the next listing fails. -/
def emptiedEvents : List IndexEvent :=
  [.call (.keep ⟨"Vkept"⟩),
    .replace ((Store.empty .standard 10).put1 ⟨⟨⟨"Vstock"⟩, ⟨"order"⟩, "a"⟩, ∅⟩),
    .call (.contains ⟨"Vstock"⟩), .replace ((Store.empty .standard 10).failNext .listNamespaces "down")]

theorem NamespaceIndex.coherent_emptied :
    (IndexEvent.runLogged (.empty .standard 10) emptiedEvents).source.listings =
        [.ok [⟨"Vstock"⟩]] ∧
      (contains ⟨"Vstock"⟩ (IndexEvent.run (.empty .standard 10) emptiedEvents)).1 = .ok true ∧
      (contains ⟨"Vnew"⟩ (IndexEvent.run (.empty .standard 10) emptiedEvents)).1 =
        .error (.backend "listing namespaces; ListNamespaces" "down") := by
  obtain ⟨hcalls, -, hrun, hcoherent, -⟩ := NamespaceIndex.coherent (.empty .standard 10) emptiedEvents
  have hcontains (space : Namespace) := (hcalls space).1
    (IndexEvent.runLogged (.empty .standard 10) emptiedEvents)
  rw [hrun] at hcontains
  have hlog : (IndexEvent.runLogged (.empty .standard 10) emptiedEvents).source.listings =
      [.ok [⟨"Vstock"⟩]] := rfl
  refine ⟨hlog, ?_, ?_⟩
  · have hknown := (hcoherent.knows ⟨"Vstock"⟩).mpr (.inr ⟨[⟨"Vstock"⟩], by simp [hlog], by decide⟩)
    rw [hcontains, hcoherent.hit _ hknown]
  · have hunknown : (IndexEvent.runLogged (.empty .standard 10) emptiedEvents).index.knows ⟨"Vnew"⟩ =
        false := rfl
    rw [hcontains, (hcoherent.miss _ hunknown).2]
    rfl

end DocumentStore
