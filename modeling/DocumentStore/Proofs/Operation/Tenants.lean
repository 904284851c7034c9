import DocumentStore.Proofs.Operation.Confined
import DocumentStore.Proofs.Operation.Runs
import DocumentStore.Proofs.Tenancy.Tenants
set_option autoImplicit false

/-!
# Tenants do not notice each other

Several tenants use the handles of one deployment, operation by operation and stream by stream, in any
order.  What one of them observes is what it would have observed without the others, whatever they
write, read and delete under the same kinds and names.
-/

namespace DocumentStore

/-! ## Requests -/

/-- Streams that handles with a resolver open for a tenant, and what is left of them once items have
been taken. -/
inductive ItemStream.OpenedFor (resolver : NamespaceResolver) (tenant : Option Tenant) :
    {α : Type} → ItemStream α → Prop where
  | indexMatching {ι : Type} [RecordId ι] (s : RecordStore ι) (caller : Caller) (p : Predicate)
    (hresolver : s.settings.resolver = resolver) (htenant : caller.tenant = tenant) :
    OpenedFor resolver tenant (s.indexMatching caller p)
  | scan {ι : Type} [RecordId ι] (s : RecordStore ι) (caller : Caller) (q : RecordQuery ι)
    {context : Context} {stream : ItemStream (Record ι)}
    (hresolver : s.settings.resolver = resolver) (htenant : caller.tenant = tenant)
    (h : (s.readAllRecords caller q context).1 = .ok stream) : OpenedFor resolver tenant stream
  | historyBackward {ι : Type} [RecordId ι] (s : AggregateStore ι) (caller : Caller) (id : ι)
    (batch : Nat) (hresolver : s.settings.resolver = resolver) (htenant : caller.tenant = tenant) :
    OpenedFor resolver tenant (s.historyBackward caller id batch)
  | aggregates {ι : Type} [RecordId ι] (s : AggregateStore ι) (caller : Caller)
    (hresolver : s.settings.resolver = resolver) (htenant : caller.tenant = tenant) :
    OpenedFor resolver tenant (s.index caller)
  | rest {α : Type} {stream : ItemStream α} (h : OpenedFor resolver tenant stream) (count : Nat)
    (c : Connection) : OpenedFor resolver tenant (stream.take count c).2.1

namespace Deployment

/-- What a deployment is asked: for a handle, for an operation of a handle, or for items of a stream
that was opened before. -/
inductive Request : Type 1 where
  | openHandle (kind : Kind)
  | operate {ι : Type} [RecordId ι] (h : Handle) (caller : Caller) (op : Operation ι)
  | pull {α : Type} (h : Handle) (tenant : Option Tenant) (count : Option Nat)
    (stream : ItemStream α)

/-- What a request is answered.  What is left of a stream is there to be pulled from later. -/
inductive Observation : Type 1 where
  | handle (answer : Outcome Handle)
  | answer {ι : Type} (answer : Outcome (Answer ι))
  | items {α : Type} (drained : Drained α) (rest : ItemStream α)

namespace Request

/-- What a request does. -/
def perform : Request → Deployment → Observation × Deployment
  | .openHandle kind, d =>
    match Deployment.openHandle kind d with
    | (answer, d) => (.handle answer, d)
  | @operate _ _ h caller op, d =>
    match onHandle h (op.perform h.settings caller) d with
    | (answer, d) => (.answer answer, d)
  | .pull h _ count stream, d =>
    match d.pull h count stream with
    | (drained, rest, d) => (.items drained rest, d)

/-- The tenant on whose behalf a request is made. -/
def tenant? : Request → Option Tenant
  | .openHandle _ => none
  | @operate _ _ _ caller _ => caller.tenant
  | .pull _ tenant _ _ => tenant

/-- Whether a request is made on behalf of another tenant. -/
def isForeign (tenant : Tenant) (r : Request) : Bool := r.tenant?.any (· ≠ tenant)

/-- Whether the handle of a request, or its stream, is one of handles with a resolver. -/
def Uses (resolver : NamespaceResolver) : Request → Prop
  | .openHandle _ => True
  | @operate _ _ h _ _ => h.settings.resolver = resolver
  | .pull _ tenant _ stream => stream.OpenedFor resolver tenant

end Request

/-- What a run of requests answers to a tenant, and to those who ask without one. -/
def observed (tenant : Tenant) : List Request → Deployment → List Observation
  | [], _ => []
  | r :: rest, d =>
    match r.perform d with
    | (o, d) => if r.isForeign tenant then observed tenant rest d else o :: observed tenant rest d

end Deployment

/-! ## Streams that were opened -/

theorem ItemStream.take_keeps {α : Type} (keeps : EntityStream → Prop)
    (hkeeps : ∀ s c, keeps s → keeps (s.pull c).1.rest) {stream : ItemStream α}
    (h : keeps stream.source) (count : Nat) (c : Connection) :
    keeps (stream.take count c).2.1.source := by
  induction count generalizing stream c with
  | zero => exact h
  | succ count ih =>
    have hpull := hkeeps stream.source c h
    unfold take
    rcases hp : stream.source.pull c with ⟨⟨_ | item, rest⟩, c'⟩ <;> rw [hp] at hpull
    · exact hpull
    · refine ih ?_ c'
      exact hpull

/-- A stream of a tenant makes its calls under one policy, and looks at the tenant's namespace alone. -/
theorem ItemStream.OpenedFor.sound {resolver : NamespaceResolver} {tenant : Option Tenant}
    {α : Type} {stream : ItemStream α} (h : stream.OpenedFor resolver tenant)
    {visible : Namespace → Prop}
    (hvisible : ∀ space, resolver.current tenant = .ok space → visible space) :
    (∃ policy, stream.source.Uses policy) ∧ stream.source.Within fun e => visible e.key.space := by
  replace hvisible := fun space hspace => Namespace.Within.of_space (hvisible space hspace)
  induction h with
  | indexMatching s caller p hresolver htenant =>
    subst hresolver htenant
    exact ⟨⟨_, s.indexMatching_uses caller p⟩, s.indexMatching_within hvisible p⟩
  | scan s caller q hresolver htenant h =>
    subst hresolver htenant
    obtain ⟨stream', hquiet, huses⟩ := s.readAllRecords_uses caller q
    obtain rfl := Except.ok.inj ((hquiet _).1.symm.trans h)
    exact ⟨⟨_, huses⟩, s.readAllRecords_within hvisible h⟩
  | historyBackward s caller id batch hresolver htenant =>
    subst hresolver htenant
    exact ⟨⟨_, s.historyEntities_uses caller id batch⟩,
      s.historyEntities_within fun space hspace => Namespace.Within.query (hvisible space hspace)⟩
  | aggregates s caller hresolver htenant =>
    subst hresolver htenant
    exact ⟨⟨_, s.index_uses caller⟩, s.index_within hvisible⟩
  | rest h count c ih =>
    obtain ⟨⟨policy, huses⟩, hwithin⟩ := ih
    exact ⟨⟨policy, take_keeps (·.Uses policy) (fun _ c h => EntityStream.pull_uses h c) huses count c⟩,
      take_keeps (EntityStream.Within _) (fun _ c h => EntityStream.pull_within h c) hwithin count c⟩

/-! ## Deployments that agree -/

namespace Deployment

/-- Whether two deployments hand out the same handles, are open and without explicit transactions, and
their stores agree. -/
structure Agree (visible : Namespace → Prop) (d d' : Deployment) : Prop where
  settings : d.settings = d'.settings
  resolver : d.resolver = d'.resolver
  mapping : d.mapping = d'.mapping
  handles : d.slots.length = d'.slots.length
  isOpen : d.closed = false
  isOpen' : d'.closed = false
  idle : ∀ slot ∈ d.slots, slot.isActive = false
  idle' : ∀ slot ∈ d'.slots, slot.isActive = false
  store : d.store.Agree (fun e => visible e.key.space) d'.store

section Agree

variable {visible own : Namespace → Prop} {d d' : Deployment}

theorem isActive_slotOf {d : Deployment} (h : ∀ slot ∈ d.slots, slot.isActive = false)
    (handle : Handle) : (d.slotOf handle).isActive = false := by
  unfold slotOf
  rw [List.getD_eq_getElem?_getD]
  cases hslot : d.slots[handle.slot]? with
  | none => rfl
  | some slot => exact h slot (List.mem_of_getElem? hslot)

theorem isActive_set {slots : List Slot} (h : ∀ slot ∈ slots, slot.isActive = false) (i : Nat)
    {slot : Slot} (hslot : slot.isActive = false) :
    ∀ slot' ∈ slots.set i slot, slot'.isActive = false := by
  intro slot' hmem
  rcases List.mem_or_eq_of_mem_set hmem with hmem | rfl
  · exact h slot' hmem
  · exact hslot

theorem Agree.connection (h : Agree visible d d') (handle : Handle) :
    (d.connection handle).Agree (fun e => visible e.key.space) (d'.connection handle) :=
  ⟨h.isOpen, h.isOpen', isActive_slotOf h.idle handle, isActive_slotOf h.idle' handle, h.store⟩

theorem Agree.withConnection (h : Agree visible d d') (handle : Handle) {c c' : Connection}
    (hc : c.Agree (fun e => visible e.key.space) c') :
    Agree visible (d.withConnection handle c) (d'.withConnection handle c') where
  settings := h.settings
  resolver := h.resolver
  mapping := h.mapping
  handles := by simp only [Deployment.withConnection, List.length_set, h.handles]
  isOpen := hc.isOpen
  isOpen' := hc.isOpen'
  idle := isActive_set h.idle handle.slot hc.idle
  idle' := isActive_set h.idle' handle.slot hc.idle'
  store := hc.store

theorem Agree.withContext (h : Agree visible d d') (handle : Handle) {s s' : Context}
    (hs : s.Agree (fun e => visible e.key.space) s') :
    Agree visible (d.withContext handle s) (d'.withContext handle s') :=
  have hc := h.withConnection handle hs
  ⟨hc.settings, hc.resolver, hc.mapping, hc.handles, hc.isOpen, hc.isOpen', hc.idle, hc.idle',
    hc.store⟩

/-- A deployment agrees with itself on all namespaces if it agrees with another one on some. -/
theorem Agree.self (h : Agree visible d d') : Agree own d d :=
  ⟨rfl, rfl, rfl, rfl, h.isOpen, h.isOpen, h.idle, h.idle,
    ⟨rfl, rfl, h.store.failures, h.store.failures, fun _ _ => .rfl⟩⟩

/-! ## One request -/

/-- A request of a tenant is answered alike by deployments that agree on its namespace. -/
theorem Agree.perform {r : Request} (hr : r.Uses d.resolver)
    (hvisible : ∀ space, d.resolver.current r.tenant? = .ok space → visible space)
    (h : Agree visible d d') : Alike (Agree visible) (r.perform d) (r.perform d') := by
  cases r with
  | openHandle kind =>
    have hhandle : d.handleSettings kind = d'.handleSettings kind := by
      simp only [handleSettings, policy, h.settings, h.resolver, h.mapping]
    refine ⟨?_, h.settings, h.resolver, h.mapping, ?_, h.isOpen, h.isOpen', ?_, ?_, h.store⟩
    · simp only [Request.perform, openHandle, hhandle, h.handles]
    · simp only [Request.perform, openHandle, List.length_append, h.handles]
    · exact List.forall_mem_append.mpr ⟨h.idle, List.forall_mem_singleton.mpr rfl⟩
    · exact List.forall_mem_append.mpr ⟨h.idle', List.forall_mem_singleton.mpr rfl⟩
  | operate handle caller op =>
    have hrespects := op.perform_respects handle.settings fun space hspace =>
      Namespace.Within.of_space (hvisible space (hr ▸ hspace))
    obtain ⟨answer, s, s', hs, hs', hagree⟩ :=
      (hrespects (d.context handle) (d'.context handle) (h.connection handle)).exists_eq
    simp only [Request.perform, onHandle, Action.onPart, hs, hs']
    exact ⟨rfl, h.withContext handle hagree⟩
  | pull handle tenant count stream =>
    obtain ⟨⟨policy, huses⟩, hwithin⟩ := hr.sound hvisible
    unfold Request.perform Deployment.pull
    cases count with
    | some count =>
      obtain ⟨drained, rest, c, c', hc, hc', hagree⟩ :=
        ItemStream.take_alike huses hwithin (h.connection handle) (.inl (Eq.refl count))
      simp only [hc, hc']
      exact ⟨rfl, h.withConnection handle hagree⟩
    | none =>
      obtain ⟨drained, rest, c, c', hc, hc', hagree⟩ :=
        ItemStream.drain_alike huses hwithin (h.connection handle)
      simp only [hc, hc']
      exact ⟨rfl, h.withConnection handle hagree⟩

/-- A request writes in its tenant's namespace alone. -/
theorem Agree.perform_wrote {r : Request} (hr : r.Uses d.resolver)
    (hown : ∀ space, d.resolver.current r.tenant? = .ok space → own space)
    (h : Agree visible d d') :
    ∃ done : List Write, (∀ w ∈ done, own w.1.space) ∧
      Store.SameData (d.store.write done) (r.perform d).2.store := by
  have hchain {policy : Policy} {handle : Handle} {c : Connection}
      (hchain : Connection.Chain policy (fun w => own w.1.space) (d.connection handle) c) :
      ∃ done : List Write, (∀ w ∈ done, own w.1.space) ∧
        Store.SameData (d.store.write done) c.store := by
    obtain ⟨done, hdone, hwrote⟩ := hchain.wrote (isActive_slotOf h.idle handle)
    exact ⟨done, hdone, hwrote.sameData⟩
  cases r with
  | openHandle kind => exact ⟨[], List.forall_mem_nil _, .refl _⟩
  | operate handle caller op =>
    refine hchain (op.perform_chain handle.settings caller (d.context handle) fun ws hws => ?_)
    exact Operation.visible_of_mem_writes (hr ▸ hown) (isActive_slotOf h.idle handle) hws
  | pull handle tenant count stream =>
    obtain ⟨⟨policy, huses⟩, -⟩ := hr.sound hown
    cases count with
    | some count => exact hchain (ItemStream.take_chain count huses (d.connection handle))
    | none => exact hchain (ItemStream.take_chain (stream.source.bound d.store.size + 1) huses
        (d.connection handle))

theorem Request.slots_perform {r : Request} {other : Tenant} (h : r.tenant? = some other)
    (d : Deployment) : (r.perform d).2.slots.length = d.slots.length := by
  cases r with
  | openHandle kind => cases h
  | operate handle caller op => exact List.length_set ..
  | pull handle tenant count stream => cases count <;> exact List.length_set ..

theorem Request.resolver_perform (r : Request) (d : Deployment) :
    (r.perform d).2.resolver = d.resolver := by
  cases r <;> rfl

/-- A request of another tenant does not disturb the agreement on what is hidden from that tenant. -/
theorem Agree.foreign {r : Request} {other : Tenant} (hr : r.Uses d.resolver)
    (htenant : r.tenant? = some other)
    (hhidden : ∀ space, d.resolver.current (some other) = .ok space → ¬visible space)
    (h : Agree visible d d') : Agree visible (r.perform d).2 d' := by
  rw [← htenant] at hhidden
  have hself := (h.self.perform hr hhidden).state
  obtain ⟨done, hdone, hdata⟩ := h.perform_wrote hr hhidden
  have hframe : (r.perform d).2.settings = d.settings ∧ (r.perform d).2.mapping = d.mapping := by
    cases r <;> exact ⟨rfl, rfl⟩
  refine ⟨hframe.1.trans h.settings, (r.resolver_perform d).trans h.resolver,
    hframe.2.trans h.mapping, (Request.slots_perform htenant d).trans h.handles, hself.isOpen,
    h.isOpen', hself.idle, h.idle', ?_⟩
  refine ⟨hdata.limits.trans h.store.limits, hdata.pageLimit.trans h.store.pageLimit,
    hself.store.failures, h.store.failures', fun e he => ?_⟩
  rw [hdata.documents, ← h.store.documents e he]
  have hkept : (Write.applyAll d.store.documents done).get? e.key = d.store.documents.get? e.key :=
    Write.get?_applyAll_of_forall_ne fun w hw heq => hdone w hw (heq ▸ he)
  exact iff_of_eq (congrArg (· = some e.properties) hkept)

end Agree

/-! ## Runs -/

theorem Request.isForeign_eq_true {tenant : Tenant} {r : Request} :
    r.isForeign tenant = true ↔ ∃ other, r.tenant? = some other ∧ other ≠ tenant := by
  simp only [isForeign, Option.any_eq_true, decide_eq_true_eq]

/-- Requests of other tenants can be left out of a run, and the run begun on any deployment that agrees
on the tenant's namespace. -/
theorem Agree.observed {c : NamespaceConverter} (hlayered : c.Layered) {tenant : Tenant}
    {requests : List Request} (hrequests : ∀ r ∈ requests, r.Uses (.multi c)) {d d' : Deployment}
    (hresolver : d.resolver = .multi c)
    (h : Agree (fun space => (NamespaceResolver.multi c).resolve tenant = .ok space) d d') :
    observed tenant requests d =
      observed tenant (requests.filter fun r => !r.isForeign tenant) d' := by
  induction requests generalizing d d' with
  | nil => rfl
  | cons r rest ih =>
    obtain ⟨hr, hrest⟩ := List.forall_mem_cons.mp hrequests
    rw [← hresolver] at hr
    have hresolver' := (r.resolver_perform d).trans hresolver
    by_cases hforeign : r.isForeign tenant = true
    · obtain ⟨other, htenant, hother⟩ := Request.isForeign_eq_true.mp hforeign
      have hnext := h.foreign hr htenant fun space hspace hsame => by
        rw [hresolver] at hspace
        exact hother (NamespaceResolver.eq_of_resolve_eq hlayered hspace hsame)
      rw [List.filter_cons_of_neg (by simp [hforeign]), Deployment.observed]
      dsimp only
      rw [if_pos hforeign]
      exact ih hrest hresolver' hnext
    · have hown : ∀ space, d.resolver.current r.tenant? = .ok space →
          (NamespaceResolver.multi c).resolve tenant = .ok space := by
        intro space hspace
        rw [hresolver] at hspace
        cases htenant : r.tenant? with
        | none =>
          rw [htenant] at hspace
          cases hspace
        | some other =>
          obtain rfl : other = tenant := Classical.byContradiction fun hother =>
            hforeign (Request.isForeign_eq_true.mpr ⟨other, htenant, hother⟩)
          rw [htenant] at hspace
          exact hspace
      obtain ⟨o, d₁, d₁', hd, hd', hnext⟩ := (h.perform hr hown).exists_eq
      rw [hd] at hresolver'
      rw [List.filter_cons_of_pos (by simp [hforeign]), Deployment.observed, Deployment.observed, hd,
        hd']
      dsimp only
      rw [if_neg hforeign, if_neg hforeign, ih hrest hresolver' hnext]

/-- The namespaces of several tenants are named by tag, behind a prefix or not. -/
theorem exists_layered_of_resolver {settings : StorageSettings} {resolver : NamespaceResolver}
    (h : settings.resolver = .ok resolver) (hmulti : resolver.isMultitenant = true) :
    ∃ c : NamespaceConverter, resolver = .multi c ∧ c.Layered := by
  unfold StorageSettings.resolver at h
  split at h
  · obtain ⟨space, -, h⟩ := Outcome.bind_eq_ok h
    cases h
    cases hmulti
  · cases h
    exact ⟨_, rfl, .tagged⟩
  · obtain ⟨c, hc, h⟩ := Outcome.bind_eq_ok h
    cases h
    exact ⟨c, rfl, .prefixed .tagged hc⟩

/-- What a tenant observes of a deployment for several tenants, on a store without failures to come, is
what it would have observed if the other tenants had asked nothing: every answer, every failure and
every item of a stream, wherever the others' requests stood in between. -/
theorem observed_eq_observed_filter {store : Store} {settings : StorageSettings}
    {mapping : ColumnMapping} {d : Deployment} (hstart : start store settings mapping = .ok d)
    (hmulti : d.resolver.isMultitenant = true) (hcalm : store.failures = []) (tenant : Tenant)
    {requests : List Request} (hrequests : ∀ r ∈ requests, r.Uses d.resolver) :
    observed tenant requests d =
      observed tenant (requests.filter fun r => !r.isForeign tenant) d := by
  obtain ⟨resolver, hresolver, hd⟩ := Outcome.bind_eq_ok hstart
  cases hd
  obtain ⟨c, rfl, hlayered⟩ := exists_layered_of_resolver hresolver hmulti
  refine Agree.observed hlayered hrequests rfl ?_
  exact ⟨rfl, rfl, rfl, rfl, rfl, rfl, List.forall_mem_nil _, List.forall_mem_nil _,
    ⟨rfl, rfl, hcalm, hcalm, fun _ _ => .rfl⟩⟩

/-- A deployment for several tenants, each of whose operations has a transaction of its own. -/
def sharedDeployment : Deployment :=
  { settings := { StorageSettings.multitenant with transactional := true, pageSize := 1 }
    resolver := .multi .tagged, mapping := .builtin, store := .empty .standard 2
    metrics := .zero, closed := false, index := .empty, keys := .empty, slots := [] }

/-- A handle that two tenants share. -/
def sharedHandle : Handle := ⟨sharedDeployment.handleSettings ⟨"order"⟩, 0⟩

/-- A tenant with the value of another tenant, who is of another type. -/
def acme (seconds : Int) : Caller := ⟨some (.value "acme"), ⟨seconds, 0⟩⟩

/-- The other tenant. -/
def acmeDomain (seconds : Int) : Caller := ⟨some (.domain "acme"), ⟨seconds, 0⟩⟩

/-- One tenant writes, deletes and truncates under the names that the other reads meanwhile. -/
def sharedRequests : List Request :=
  let request (caller : Caller) (op : Operation String) := Request.operate sharedHandle caller op
  let snapshot (version : Int) : HistoryRecord := .snapshot ⟨version, ⟨0, 0⟩, []⟩
  let index := RecordStore.index (ι := String) ⟨sharedHandle.settings⟩ (acme 0)
  let writes := request (acme 1) (.writeAll [⟨"a", [1], ∅⟩, ⟨"b", [2], ∅⟩])
  let written := (writes.perform sharedDeployment).2.connection sharedHandle
  [.openHandle ⟨"order"⟩, writes, request (acmeDomain 2) (.write ⟨"b", [3], ∅⟩),
    .pull sharedHandle (some (.value "acme")) (some 1) index,
    request (acmeDomain 3) (.delete "b"),
    .pull sharedHandle (some (.value "acme")) none (index.take 1 written).2.1,
    request (acme 4) (.writeEntry "a" (snapshot 1)),
    request (acmeDomain 5) (.writeEntry "a" (snapshot 1)),
    request (acmeDomain 6) (.writeEntry "a" (snapshot 2)),
    request (acmeDomain 7) (.truncate "a" 0), request (acme 8) (.readHistory "a" 1)]

/-- The requests of one of the tenants. -/
def acmeRequests : List Request :=
  sharedRequests.filter fun r => !r.isForeign (.value "acme")

theorem observed_eq_observed_filter_sharedRequests :
    start (.empty .standard 2) sharedDeployment.settings .builtin = .ok sharedDeployment ∧
      sharedRequests.length = 11 ∧ acmeRequests.length = 6 ∧
      observed (.value "acme") sharedRequests sharedDeployment =
        observed (.value "acme") acmeRequests sharedDeployment := by
  have hstart : start (.empty .standard 2) sharedDeployment.settings .builtin =
      .ok sharedDeployment := rfl
  refine ⟨hstart, rfl, rfl, observed_eq_observed_filter hstart rfl rfl _ fun r hr => ?_⟩
  have hindex : (RecordStore.index (ι := String) ⟨sharedHandle.settings⟩ (acme 0)).OpenedFor
      sharedDeployment.resolver (some (.value "acme")) := .indexMatching _ _ _ rfl rfl
  simp only [sharedRequests, List.mem_cons, List.not_mem_nil, or_false] at hr
  rcases hr with rfl | rfl | rfl | rfl | rfl | rfl | rfl | rfl | rfl | rfl | rfl
  · exact trivial
  · exact rfl
  · exact rfl
  · exact hindex
  · exact rfl
  · exact hindex.rest 1 _
  · exact rfl
  · exact rfl
  · exact rfl
  · exact rfl
  · exact rfl

end Deployment

end DocumentStore
