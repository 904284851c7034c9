import DocumentStore.Proofs.Store.Congruence
set_option autoImplicit false

/-!
# Stores that agree on what is visible

Two stores agree on visible documents, say those of some namespaces, if they hold the same of them, let
the same calls in, and have no failure to come.  A call that looks at nothing but visible documents has
the same answer on both, and whatever a call writes, the stores agree afterwards.
-/

namespace DocumentStore

/-! ## Maps that agree on some keys -/

namespace SortedMap

variable {κ ν : Type} [Ord κ]

/-- The entries that a test lets through. -/
def filter (test : κ × ν → Bool) (m : SortedMap κ ν) : SortedMap κ ν :=
  ⟨m.entries.filter test, m.ascending.filter test⟩

/-- Maps are filtered to the same map if they agree on the entries that the test lets through. -/
theorem filter_congr [Std.TransOrd κ] [Std.LawfulEqOrd κ] {test : κ × ν → Bool} {m n : SortedMap κ ν}
    (h : ∀ k v, test (k, v) = true → (m.get? k = some v ↔ n.get? k = some v)) :
    m.filter test = n.filter test := by
  refine ext_get? fun k => Option.ext fun v => ?_
  rw [get?_eq_some_iff, get?_eq_some_iff, filter, filter, List.mem_filter, List.mem_filter,
    and_congr_left_iff]
  intro htest
  rw [← get?_eq_some_iff, ← get?_eq_some_iff, h k v htest]

end SortedMap

/-! ## What is visible -/

/-- Whether a query selects visible documents only. -/
def EntityQuery.Within (visible : Entity → Prop) (q : EntityQuery) : Prop :=
  ∀ e, q.selects e = true → visible e

/-- Whether any document of a key is visible. -/
def Key.Within (visible : Entity → Prop) (k : Key) : Prop := ∀ properties, visible ⟨k, properties⟩

/-- Whether every document of a namespace is visible. -/
def Namespace.Within (visible : Entity → Prop) (space : Namespace) : Prop :=
  ∀ e : Entity, e.key.space = space → visible e

/-- A query selects documents of its namespace only. -/
theorem EntityQuery.space_of_selects {q : EntityQuery} {e : Entity} (h : q.selects e = true) :
    e.key.space = q.space := by
  simp only [selects, Bool.and_eq_true, beq_iff_eq] at h
  exact h.1.1

namespace Namespace.Within

variable {visible : Entity → Prop}

theorem query {q : EntityQuery} (h : q.space.Within visible) : q.Within visible :=
  fun e he => h e (EntityQuery.space_of_selects he)

theorem key {k : Key} (h : k.space.Within visible) : k.Within visible := fun _ => h _ rfl

/-- The documents of a visible namespace are visible. -/
theorem of_space {visible : Namespace → Prop} {space : Namespace} (h : visible space) :
    space.Within fun e => visible e.key.space := by
  rintro e rfl
  exact h

end Namespace.Within

/-! ## Stores -/

/-- Whether two stores have the same limits and no failure to come, and hold the same visible
documents. -/
structure Store.Agree (visible : Entity → Prop) (s s' : Store) : Prop where
  limits : s.limits = s'.limits
  pageLimit : s.pageLimit = s'.pageLimit
  failures : s.failures = []
  failures' : s'.failures = []
  documents : ∀ e, visible e →
    (s.documents.get? e.key = some e.properties ↔ s'.documents.get? e.key = some e.properties)

namespace Store

variable {visible : Entity → Prop}

namespace Agree

variable {s s' : Store}

theorem find? (h : Agree visible s s') {k : Key} (hk : k.Within visible) : s.find? k = s'.find? k := by
  have hget : s.documents.get? k = s'.documents.get? k :=
    Option.ext fun properties => h.documents ⟨k, properties⟩ (hk properties)
  rw [Store.find?, Store.find?, hget]

/-- The results of a query for visible documents are the same. -/
theorem page (h : Agree visible s s') {q : EntityQuery} (hq : q.Within visible) (offset : Nat) :
    s.page q offset = s'.page q offset := by
  have hdocuments : s.documents.filter (q.selects ∘ fun e => ⟨e.1, e.2⟩) =
      s'.documents.filter (q.selects ∘ fun e => ⟨e.1, e.2⟩) :=
    SortedMap.filter_congr fun k v hselects => h.documents ⟨k, v⟩ (hq _ hselects)
  have hselected : s.entities.filter q.selects = s'.entities.filter q.selects := by
    rw [entities, entities, List.filter_map, List.filter_map]
    exact congrArg (fun m => (SortedMap.entries m).map _) hdocuments
  have hresults : s.results q = s'.results q := by
    unfold results
    rw [hselected]
  simp only [Store.page, hresults, h.pageLimit]

/-- The same writes keep stores in agreement, wherever they are. -/
theorem write (h : Agree visible s s') (ws : List Write) : Agree visible (s.write ws) (s'.write ws) where
  limits := h.limits
  pageLimit := h.pageLimit
  failures := h.failures
  failures' := h.failures'
  documents e he := by
    rw [Store.write, Store.write, Write.get?_applyAll, Write.get?_applyAll]
    cases (SortedMap.ofList ws).get? e.key with
    | none => exact h.documents e he
    | some last => exact .rfl

theorem release (h : Agree visible s s') (t : Transaction) :
    Agree visible (s.release t) (s'.release t) := by
  unfold Store.release
  split
  · exact h
  · exact ⟨h.limits, h.pageLimit, h.failures, h.failures', h.documents⟩

end Agree

theorem Agree.congruence (visible : Entity → Prop) :
    Congruence (Key.Within visible) (EntityQuery.Within visible) (Agree visible) where
  limits h := h.limits
  takeFailure point s s' h := by
    rw [takeFailure_of_nil h.failures, takeFailure_of_nil h.failures']
    exact ⟨rfl, h⟩
  counted h _ := ⟨h.limits, h.pageLimit, h.failures, h.failures', h.documents⟩
  found h _ hk := h.find? hk
  page h _ hq := h.page hq
  write h := h.write
  begun h := ⟨h.limits, h.pageLimit, h.failures, h.failures', h.documents⟩
  release h := h.release

end Store

end DocumentStore
