import DocumentStore.Proofs.Store.Calls
import DocumentStore.Tenancy.Index
set_option autoImplicit false

/-!
# What an index comes to know

Asking an index about namespaces changes no documents, and the index learns only namespaces that hold
a document when it asks.  What it answers is what it then knows.
-/

namespace DocumentStore

/-! ## The namespaces of a store -/

namespace Store

theorem mem_distinct {α : Type} [DecidableEq α] {a : α} {l : List α} :
    a ∈ distinct l ↔ a ∈ l := by
  induction l with
  | nil => exact Iff.rfl
  | cons b rest ih =>
    rw [distinct, List.mem_cons, List.mem_cons, List.mem_filter, ih, decide_eq_true_iff]
    by_cases heq : a = b
    · exact iff_of_true (.inl heq) (.inl heq)
    · exact or_congr_right (and_iff_left heq)

theorem mem_namespaces {s : Store} {space : Namespace} :
    space ∈ s.namespaces ↔ ∃ k p, s.documents.get? k = some p ∧ k.space = space := by
  rw [namespaces, mem_distinct, List.mem_map]
  simp only [SortedMap.get?_eq_some_iff]
  constructor
  · rintro ⟨k, hk, rfl⟩
    obtain ⟨⟨k, p⟩, hmem, rfl⟩ := List.mem_map.mp hk
    exact ⟨k, p, hmem, rfl⟩
  · rintro ⟨k, p, hmem, rfl⟩
    exact ⟨k, List.mem_map_of_mem hmem, rfl⟩

theorem namespaces_congr {s s' : Store} (h : s'.documents = s.documents) :
    s'.namespaces = s.namespaces := by rw [namespaces, h, namespaces]

end Store

namespace NamespaceIndex

@[simp] theorem knows_empty (space : Namespace) : empty.knows space = false := rfl

theorem knows_keep (i : NamespaceIndex) (kept space : Namespace) :
    (i.keep kept).knows space = true ↔ space = kept ∨ i.knows space = true := by
  simp only [knows, keep, SortedMap.contains, SortedMap.get?_insert]
  by_cases heq : space = kept
  · simp [heq]
  · simp [heq]

theorem knows_foldl_keep (i : NamespaceIndex) (spaces : List Namespace) (space : Namespace) :
    (spaces.foldl keep i).knows space = true ↔ space ∈ spaces ∨ i.knows space = true := by
  induction spaces generalizing i with
  | nil => simp
  | cons first rest ih =>
    rw [List.foldl_cons, ih, knows_keep, List.mem_cons, or_left_comm, or_assoc]

theorem mem_toList {i : NamespaceIndex} {space : Namespace} :
    space ∈ i.toList ↔ i.knows space = true := by
  rw [toList, SortedMap.keys, List.mem_map, knows, SortedMap.contains, Option.isSome_iff_exists]
  simp only [SortedMap.get?_eq_some_iff]
  constructor
  · rintro ⟨e, hmem, rfl⟩
    exact ⟨e.2, hmem⟩
  · rintro ⟨u, hmem⟩
    exact ⟨_, hmem, rfl⟩

end NamespaceIndex

/-! ## Asking -/

/-- What asking an index leads to. -/
structure Indexed.Surveyed (s s' : Indexed) : Prop where
  documents : s'.store.documents = s.store.documents
  calls : s'.store.calls = s.store.calls
  known : ∀ space, s'.index.knows space = true →
    s.index.knows space = true ∨ space ∈ s.store.namespaces

theorem Indexed.Surveyed.refl (s : Indexed) : Surveyed s s := ⟨rfl, rfl, fun _ h => .inl h⟩

namespace NamespaceIndex

theorem refresh_surveyed (s : Indexed) : s.Surveyed (refresh s).2 := by
  have hdata := Store.sameData_takeFailure .listNamespaces s.store
  have hcalls := Store.calls_takeFailure .listNamespaces s.store
  rw [refresh, Store.listNamespaces, Action.bind_apply]
  rcases hr : Store.takeFailure .listNamespaces s.store with ⟨e | _, store⟩ <;>
    rw [hr] at hdata hcalls
  · exact ⟨hdata.documents, hcalls, fun _ h => .inl h⟩
  · refine ⟨hdata.documents, hcalls, fun space hknows => ?_⟩
    rcases (knows_foldl_keep ..).mp hknows with hmem | hknown
    · rw [Store.namespaces_congr hdata.documents] at hmem
      exact .inr hmem
    · exact .inl hknown

/-- The answer is what the index knows afterwards. -/
theorem contains_surveyed (space : Namespace) (s : Indexed) :
    s.Surveyed (contains space s).2 ∧
      ∀ known, (contains space s).1 = .ok known → (contains space s).2.index.knows space = known := by
  have hsurveyed := refresh_surveyed s
  rw [contains, Action.bind_apply, Action.gets]
  dsimp only
  split
  · next hknown => exact ⟨.refl s, fun known h => hknown.trans (Except.ok.inj h)⟩
  · rw [Action.bind_apply]
    rcases hr : refresh s with ⟨e | _, s'⟩ <;> rw [hr] at hsurveyed
    · exact ⟨hsurveyed, fun known h => (by cases h)⟩
    · exact ⟨hsurveyed, fun known h => Except.ok.inj h⟩

theorem all_surveyed (s : Indexed) :
    s.Surveyed (all s).2 ∧ ∀ spaces, (all s).1 = .ok spaces → spaces = (all s).2.index.toList := by
  have hsurveyed := refresh_surveyed s
  rw [all, Action.bind_apply]
  rcases hr : refresh s with ⟨e | _, s'⟩ <;> rw [hr] at hsurveyed
  · exact ⟨hsurveyed, fun spaces h => (by cases h)⟩
  · exact ⟨hsurveyed, fun spaces h => (Except.ok.inj h).symm⟩

end NamespaceIndex

namespace NamespaceResolver

/-- A namespace that is accepted is known. -/
theorem validate_surveyed (space : Namespace) (s : Indexed) :
    s.Surveyed (validate true space s).2 ∧
      ∀ answer, (validate true space s).1 = .ok answer →
        (validate true space s).2.index.knows space = true := by
  obtain ⟨hsurveyed, hanswer⟩ := NamespaceIndex.contains_surveyed space s
  simp only [validate, NamespaceIndex.validate, Bool.not_true, Bool.false_eq_true, if_false,
    Action.bind_apply, Action.pure_apply]
  rcases hr : NamespaceIndex.contains space s with ⟨e | known, s'⟩ <;> rw [hr] at hsurveyed hanswer
  · exact ⟨hsurveyed, fun answer h => (by cases h)⟩
  · have hknown : s'.index.knows space = known := hanswer known rfl
    cases known with
    | true => exact ⟨hsurveyed, fun answer h => hknown⟩
    | false => exact ⟨hsurveyed, fun answer h => (by cases h)⟩

/-- The tenants that are listed are those of the namespaces that are then known. -/
theorem allTenants_surveyed (r : NamespaceResolver) (s : Indexed) :
    s.Surveyed (r.allTenants true s).2 ∧
      ∀ tenants, (r.allTenants true s).1 = .ok tenants →
        tenants = r.tenants (r.allTenants true s).2.index.toList := by
  obtain ⟨hsurveyed, hanswer⟩ := NamespaceIndex.all_surveyed s
  unfold allTenants
  cases r.isMultitenant with
  | false => exact ⟨.refl s, fun tenants h => (by cases h)⟩
  | true =>
    simp only [Bool.not_true, Bool.false_eq_true, if_false, Action.bind_apply, Action.pure_apply]
    rcases hr : NamespaceIndex.all s with ⟨e | spaces, s'⟩ <;> rw [hr] at hsurveyed hanswer
    · exact ⟨hsurveyed, fun tenants h => (by cases h)⟩
    · refine ⟨hsurveyed, fun tenants h => ?_⟩
      obtain rfl := Except.ok.inj h
      exact congrArg r.tenants (hanswer spaces rfl)

theorem mem_tenants {r : NamespaceResolver} {spaces : List Namespace} {tenant : Tenant} :
    tenant ∈ r.tenants spaces ↔ ∃ space ∈ spaces, r.restore space = .ok tenant := by
  have hread (space : Namespace) :
      (r.restore space).toOption = some tenant ↔ r.restore space = .ok tenant := by
    cases r.restore space <;> simp [Except.toOption]
  simp only [tenants, List.mem_filterMap, hread]

theorem exists_known_of_allTenants {r : NamespaceResolver} {s : Indexed} {tenants : List Tenant}
    (h : (r.allTenants true s).1 = .ok tenants) {tenant : Tenant} (hmem : tenant ∈ tenants) :
    ∃ space, r.restore space = .ok tenant ∧
      (r.allTenants true s).2.index.knows space = true := by
  rw [(r.allTenants_surveyed s).2 tenants h] at hmem
  obtain ⟨space, hspace, hrestore⟩ := mem_tenants.mp hmem
  exact ⟨space, hrestore, NamespaceIndex.mem_toList.mp hspace⟩

end NamespaceResolver

end DocumentStore
