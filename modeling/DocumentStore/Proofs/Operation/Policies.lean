import DocumentStore.Proofs.Access.Policies
import DocumentStore.Proofs.Operation.Simulation
import DocumentStore.Proofs.Operation.Tenants
set_option autoImplicit false

/-!
# What the transactional policy changes

Two deployments on stores with the same content are asked the same, one whose operations have
transactions of their own and one whose calls go straight to the store.  Without explicit transactions
and failures to come, the answers are the same but for the wrapping of failures, and so is the store
after every request: the documents, and how many calls of each kind it has counted.
-/

namespace DocumentStore

/-- The handle that makes its calls under another policy. -/
def Handle.withPolicy (policy : Policy) (h : Handle) : Handle :=
  { h with settings := h.settings.withPolicy policy }

namespace Deployment

/-- The request to a handle, or of a stream, whose calls are made under another policy. -/
def Request.withPolicy (policy : Policy) : Request → Request
  | .openHandle kind => .openHandle kind
  | @operate _ _ h caller op => .operate (h.withPolicy policy) caller op
  | .pull h tenant count stream =>
    .pull (h.withPolicy policy) tenant count (stream.withPolicy policy)

/-- Whether two observations are the same, but for the policies of what is handed out, and for failures
that one of them reports as those of an operation. -/
inductive Observation.Matches (p q : Policy) : Observation → Observation → Prop where
  | handle (h : Handle) :
    Matches p q (.handle (.ok (h.withPolicy p))) (.handle (.ok (h.withPolicy q)))
  | answer {ι : Type} {a a' : Outcome (Answer ι)}
    (h : Outcome.Matches StorageError.ReportedAs (Answer.Matches StorageError.ReportedAs) a a') :
    Matches p q (.answer a) (.answer a')
  | items {α : Type} {d d' : Drained α} (rest : ItemStream α)
    (h : d.Matches StorageError.ReportedAs d') :
    Matches p q (.items d (rest.withPolicy p)) (.items d' (rest.withPolicy q))

/-- What requests are answered one after another, each with the store that it leaves. -/
def traced : List Request → Deployment → List (Observation × Store)
  | [], _ => []
  | r :: rest, d =>
    match r.perform d with
    | (o, d) => (o, d.store) :: traced rest d

/-- Whether two deployments are on the same store, without failures to come and explicit transactions,
and differ in the transactional policy alone. -/
structure Twin (limits : BatchLimits) (d d' : Deployment) : Prop where
  policy : d.policy = ⟨limits, false⟩
  policy' : d'.policy = ⟨limits, true⟩
  pageSize : d.settings.pageSize = d'.settings.pageSize
  resolver : d.resolver = d'.resolver
  mapping : d.mapping = d'.mapping
  store : d.store = d'.store
  calm : d.store.failures = []
  closed : d.closed = d'.closed
  handles : d.slots.length = d'.slots.length
  idle : ∀ slot ∈ d.slots, slot.isActive = false
  idle' : ∀ slot ∈ d'.slots, slot.isActive = false

namespace Twin

variable {limits : BatchLimits} {d d' : Deployment}

theorem connection (h : Twin limits d d') (handle handle' : Handle) :
    (d.connection handle).Twin (d'.connection handle') :=
  ⟨h.store, h.calm, h.closed, isActive_slotOf h.idle handle, isActive_slotOf h.idle' handle'⟩

theorem withConnection (h : Twin limits d d') (handle handle' : Handle) {c c' : Connection}
    (hc : c.Twin c') : Twin limits (d.withConnection handle c) (d'.withConnection handle' c') where
  policy := h.policy
  policy' := h.policy'
  pageSize := h.pageSize
  resolver := h.resolver
  mapping := h.mapping
  store := hc.store
  calm := hc.calm
  closed := hc.closed
  handles := by simp only [Deployment.withConnection, List.length_set, h.handles]
  idle := isActive_set h.idle handle.slot hc.idle
  idle' := isActive_set h.idle' handle'.slot hc.idle'

/-- A request has matching answers with and without transactions, and leaves the same store. -/
theorem perform (h : Twin limits d d') (r : Request) :
    (((r.withPolicy ⟨limits, false⟩).perform d).1).Matches ⟨limits, false⟩ ⟨limits, true⟩
        ((r.withPolicy ⟨limits, true⟩).perform d').1 ∧
      Twin limits ((r.withPolicy ⟨limits, false⟩).perform d).2
        ((r.withPolicy ⟨limits, true⟩).perform d').2 := by
  have hsim := Connection.twin_simulation limits
  cases r with
  | openHandle kind =>
    have hhandle : d.handleSettings kind = (d.handleSettings kind).withPolicy ⟨limits, false⟩ := by
      rw [← h.policy]
      rfl
    have hhandle' : d'.handleSettings kind = (d.handleSettings kind).withPolicy ⟨limits, true⟩ := by
      rw [← h.policy']
      simp only [handleSettings, HandleSettings.withPolicy, h.pageSize, h.resolver, h.mapping]
    refine ⟨?_, h.policy, h.policy', h.pageSize, h.resolver, h.mapping, h.store, h.calm, h.closed,
      ?_, ?_, ?_⟩
    · have handed := @Observation.Matches.handle ⟨limits, false⟩ ⟨limits, true⟩
        ⟨d.handleSettings kind, d.slots.length⟩
      simp only [Handle.withPolicy, ← hhandle, ← hhandle'] at handed
      simp only [Request.withPolicy, Request.perform, openHandle, ← h.handles]
      exact handed
    · simp only [Request.withPolicy, Request.perform, openHandle, List.length_append, h.handles]
    · exact List.forall_mem_append.mpr ⟨h.idle, List.forall_mem_singleton.mpr rfl⟩
    · exact List.forall_mem_append.mpr ⟨h.idle', List.forall_mem_singleton.mpr rfl⟩
  | operate handle caller op =>
    obtain ⟨hanswer, hstate⟩ := op.perform_matches hsim handle.settings caller
      (d.context (handle.withPolicy ⟨limits, false⟩)) (d'.context (handle.withPolicy ⟨limits, true⟩))
      (h.connection _ _)
    have hnext := h.withConnection (handle.withPolicy ⟨limits, false⟩)
      (handle.withPolicy ⟨limits, true⟩) hstate
    exact ⟨.answer hanswer, hnext.policy, hnext.policy', hnext.pageSize, hnext.resolver, hnext.mapping,
      hnext.store, hnext.calm, hnext.closed, hnext.handles, hnext.idle, hnext.idle'⟩
  | pull handle tenant count stream =>
    have hconnection := h.connection (handle.withPolicy ⟨limits, false⟩)
      (handle.withPolicy ⟨limits, true⟩)
    unfold Request.withPolicy Request.perform Deployment.pull
    cases count with
    | some count =>
      obtain ⟨drained, drained', rest, c, c', hc, hc', -, hdrained, htwin⟩ :=
        ItemStream.take_matches hsim count stream hconnection
      simp only [hc, hc']
      exact ⟨.items rest hdrained, h.withConnection _ _ htwin⟩
    | none =>
      obtain ⟨drained, drained', rest, c, c', hc, hc', -, hdrained, htwin⟩ :=
        ItemStream.drain_matches hsim stream hconnection
      simp only [hc, hc']
      exact ⟨.items rest hdrained, h.withConnection _ _ htwin⟩

/-- Every run of requests is answered alike with and without transactions. -/
theorem traced (h : Twin limits d d') (requests : List Request) :
    List.Forall₂
      (fun seen seen' => seen.1.Matches ⟨limits, false⟩ ⟨limits, true⟩ seen'.1 ∧ seen.2 = seen'.2)
      (Deployment.traced (requests.map (·.withPolicy ⟨limits, false⟩)) d)
      (Deployment.traced (requests.map (·.withPolicy ⟨limits, true⟩)) d') := by
  induction requests generalizing d d' with
  | nil => exact .nil
  | cons r rest ih =>
    obtain ⟨hobserved, hnext⟩ := h.perform r
    exact .cons ⟨hobserved, hnext.store⟩ (ih hnext)

end Twin

/-- With transactions of their own, operations are answered as without: a run of requests on a store
without failures to come has the same answers, but for failures that are reported as those of an
operation, and leaves the same store after each of them, its documents and its counts of calls. -/
theorem answers_independent_of_policy {store : Store} {settings : StorageSettings}
    {mapping : ColumnMapping} {direct own : Deployment}
    (hdirect : start store { settings with transactional := false } mapping = .ok direct)
    (hown : start store { settings with transactional := true } mapping = .ok own)
    (hcalm : store.failures = []) (requests : List Request) :
    List.Forall₂
      (fun seen seen' => seen.1.Matches direct.policy own.policy seen'.1 ∧ seen.2 = seen'.2)
      (traced (requests.map (·.withPolicy direct.policy)) direct)
      (traced (requests.map (·.withPolicy own.policy)) own) := by
  obtain ⟨resolver, hresolver, hd⟩ := Outcome.bind_eq_ok hdirect
  obtain ⟨resolver', hresolver', hd'⟩ := Outcome.bind_eq_ok hown
  obtain rfl : resolver = resolver' := Except.ok.inj (hresolver.symm.trans hresolver')
  cases hd
  cases hd'
  refine @Twin.traced ⟨max settings.limits.read 1, max settings.limits.write 1⟩ _ _ ?_ requests
  exact ⟨rfl, rfl, rfl, rfl, rfl, rfl, hcalm, rfl, rfl, List.forall_mem_nil _, List.forall_mem_nil _⟩

/-- Settings with larger chunks for writes than the store accepts. -/
def narrowSettings (transactional : Bool) : StorageSettings :=
  { StorageSettings.standard with transactional, limits := ⟨2, 3⟩, pageSize := 1 }

/-- A deployment on a store that accepts two entities at once. -/
def narrowDeployment (transactional : Bool) : Deployment :=
  { settings := narrowSettings transactional, resolver := .single ⟨""⟩, mapping := .builtin
    store := .empty ⟨2, 2⟩ 2, metrics := .zero, closed := false, index := .empty, keys := .empty
    slots := [] }

/-- A bulk write that is refused, one with a repeated identifier, a stream that is left for later, and
a truncation in between. -/
def narrowRequests : List Request :=
  let handle : Handle := ⟨(narrowDeployment false).handleSettings ⟨"order"⟩, 0⟩
  let caller : Caller := ⟨none, ⟨1, 0⟩⟩
  let request (op : Operation String) := Request.operate handle caller op
  let records := RecordStore.index (ι := String) ⟨handle.settings⟩ caller
  [.openHandle ⟨"order"⟩, request (.writeAll [⟨"a", [1], ∅⟩, ⟨"a", [2], ∅⟩, ⟨"b", [3], ∅⟩]),
    request (.writeAll [⟨"a", [1], ∅⟩, ⟨"a", [2], ∅⟩]), request (.readAll ["a", "b", "a"]),
    .pull handle none (some 1) records, request (.writeEntry "a" (.snapshot ⟨1, ⟨0, 0⟩, []⟩)),
    request (.truncate "a" 0), request (.delete "a"), .pull handle none none records]

theorem answers_independent_of_policy_narrowRequests :
    narrowRequests.length = 9 ∧
      List.Forall₂
        (fun seen seen' => seen.1.Matches ⟨⟨2, 3⟩, false⟩ ⟨⟨2, 3⟩, true⟩ seen'.1 ∧ seen.2 = seen'.2)
        (traced (narrowRequests.map (·.withPolicy ⟨⟨2, 3⟩, false⟩)) (narrowDeployment false))
        (traced (narrowRequests.map (·.withPolicy ⟨⟨2, 3⟩, true⟩)) (narrowDeployment true)) := by
  have hdirect : start (.empty ⟨2, 2⟩ 2) { narrowSettings true with transactional := false } .builtin =
      .ok (narrowDeployment false) := rfl
  have hown : start (.empty ⟨2, 2⟩ 2) { narrowSettings true with transactional := true } .builtin =
      .ok (narrowDeployment true) := rfl
  exact ⟨rfl, answers_independent_of_policy hdirect hown rfl narrowRequests⟩

end Deployment

end DocumentStore
