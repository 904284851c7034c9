import DocumentStore.Proofs.Tenancy.Known
import DocumentStore.Proofs.Tenancy.Tenants
import Mathlib.Data.List.Nodup
set_option autoImplicit false

/-!
# Which tenants are listed

Once the store has been listed, an index knows what it knew before and what holds a document now.
Among names without an at sign, reading back is inverse to writing.  So the names that can be read
back are exactly those of tenants, and all others are passed over: those without a tenant, those of
other deployments, and the namespace without a name.
-/

namespace DocumentStore

/-- A listing that succeeds leaves the store as it is. -/
theorem Store.listNamespaces_eq {s : Store} {spaces : List Namespace}
    (h : (listNamespaces s).1 = .ok spaces) : listNamespaces s = (.ok s.namespaces, s) := by
  unfold listNamespaces at h ⊢
  rw [Action.bind_apply] at h ⊢
  unfold takeFailure at h ⊢
  cases hwaiting : s.failures.find? (·.1 = .listNamespaces) with
  | none => rfl
  | some failure =>
    rw [hwaiting] at h
    cases h

theorem Store.mem_namespaces_iff {s : Store} {space : Namespace} :
    space ∈ s.namespaces ↔ ∃ e ∈ s.entities, e.key.space = space := by
  rw [mem_namespaces]
  simp only [SortedMap.get?_eq_some_iff]
  constructor
  · rintro ⟨k, p, hmem, hspace⟩
    exact ⟨⟨k, p⟩, List.mem_map.mpr ⟨(k, p), hmem, rfl⟩, hspace⟩
  · rintro ⟨e, hmem, hspace⟩
    obtain ⟨⟨k, p⟩, hentry, rfl⟩ := List.mem_map.mp hmem
    exact ⟨k, p, hentry, hspace⟩

namespace NamespaceIndex

/-- The known namespaces are listed in ascending order of their names, each once. -/
theorem toList_ascending (i : NamespaceIndex) : i.toList.Pairwise fun a b => a.name < b.name :=
  List.pairwise_map.mpr (i.known.ascending.imp compareOfLessAndEq_eq_lt.mp)

/-- After a listing that succeeds all that was known or holds a document is known. -/
theorem all_eq {s : Indexed} {spaces : List Namespace}
    (h : (Store.listNamespaces s.store).1 = .ok spaces) :
    all s = (.ok (s.store.namespaces.foldl keep s.index).toList,
      { s with index := s.store.namespaces.foldl keep s.index }) := by
  rw [all, Action.bind_apply, refresh, Store.listNamespaces_eq h]
  rfl

end NamespaceIndex

namespace NamespaceResolver

open NamespaceConverter

variable {c : NamespaceConverter}

/-- The tenants of namespaces have exactly those of the namespaces that can be read back. -/
theorem map_resolve_tenants (h : Layered c) {spaces : List Namespace}
    (hat : ∀ space ∈ spaces, '@' ∉ space.name.toList) :
    ((multi c).tenants spaces).map (multi c).resolve =
      (spaces.filter fun space => ((multi c).restore space).toOption.isSome).map .ok := by
  induction spaces with
  | nil => rfl
  | cons space rest ih =>
    obtain ⟨hspace, hrest⟩ := List.forall_mem_cons.mp hat
    have ih := ih hrest
    unfold tenants at ih ⊢
    cases hrestore : (multi c).restore space with
    | error e =>
      rw [List.filterMap_cons, hrestore, List.filter_cons, hrestore]
      exact ih
    | ok tenant =>
      have hresolve : (multi c).resolve tenant = .ok space :=
        (resolve_eq_ok h).mpr ⟨hspace, (restore_eq_ok h).mp hrestore⟩
      rw [List.filterMap_cons, hrestore, List.filter_cons, hrestore]
      exact List.cons_eq_cons.mpr ⟨hresolve, ih⟩

/-- If the store can be listed, the tenants that are listed are exactly those with a namespace that
is known already or holds an entity, whatever else is known or stored, in ascending order of the
names of their namespaces and each once. -/
theorem allTenants_exact (h : Layered c) (s : Indexed)
    (hlisting : ∃ spaces, (Store.listNamespaces s.store).1 = .ok spaces)
    (hknown : ∀ space, s.index.knows space = true → '@' ∉ space.name.toList)
    (hstored : ∀ e ∈ s.store.entities, '@' ∉ e.key.space.name.toList) :
    ∃ (tenants : List Tenant) (spaces : List Namespace),
      ((multi c).allTenants true s).1 = .ok tenants ∧ tenants.Nodup ∧
      tenants.map (multi c).resolve = spaces.map .ok ∧
      spaces.Pairwise (fun a b => a.name < b.name) ∧
      ∀ tenant, tenant ∈ tenants ↔ ∃ space, (multi c).resolve tenant = .ok space ∧
        (s.index.knows space = true ∨ ∃ e ∈ s.store.entities, e.key.space = space) := by
  obtain ⟨listed, hlisting⟩ := hlisting
  have hmem (space : Namespace) : space ∈ (s.store.namespaces.foldl .keep s.index).toList ↔
      s.index.knows space = true ∨ ∃ e ∈ s.store.entities, e.key.space = space := by
    rw [NamespaceIndex.mem_toList, NamespaceIndex.knows_foldl_keep, Store.mem_namespaces_iff]
    exact or_comm
  have hat : ∀ space ∈ (s.store.namespaces.foldl .keep s.index).toList,
      '@' ∉ space.name.toList := by
    intro space hspace
    rcases (hmem space).mp hspace with hspace | ⟨e, he, rfl⟩
    · exact hknown space hspace
    · exact hstored e he
  generalize hall : (s.store.namespaces.foldl .keep s.index).toList = known at hmem hat
  have hascending : (known.filter fun space =>
      ((multi c).restore space).toOption.isSome).Pairwise fun a b => a.name < b.name := by
    rw [← hall]
    exact (NamespaceIndex.toList_ascending _).sublist List.filter_sublist
  have hresolve := map_resolve_tenants h hat
  refine ⟨(multi c).tenants known, _, ?_, ?_, hresolve, hascending, fun tenant => ?_⟩
  · rw [← hall]
    show (((NamespaceIndex.all >>= fun spaces => pure ((multi c).tenants spaces)) :
      Action Indexed (List Tenant)) s).1 = _
    rw [Action.bind_apply, NamespaceIndex.all_eq hlisting]
    rfl
  · refine List.Nodup.of_map (multi c).resolve ?_
    rw [hresolve]
    refine List.Nodup.map (fun a b heq => Except.ok.inj heq) (hascending.imp fun hlt heq => ?_)
    exact absurd (heq ▸ hlt) (String.lt_irrefl _)
  · rw [mem_tenants]
    constructor
    · rintro ⟨space, hspace, hrestore⟩
      exact ⟨space, (resolve_eq_ok h).mpr ⟨hat space hspace, (restore_eq_ok h).mp hrestore⟩,
        (hmem space).mp hspace⟩
    · rintro ⟨space, hspace, hin⟩
      exact ⟨space, (hmem space).mpr hin, (restore_eq_ok h).mpr ((resolve_eq_ok h).mp hspace).2⟩

/-- A store with a namespace of the billing deployment among others, and an index that has kept one
that holds nothing now. -/
def billingIndexed : Indexed where
  store := (Store.put
    [⟨⟨⟨""⟩, ⟨"order"⟩, "a"⟩, ∅⟩, ⟨⟨⟨"Vacme"⟩, ⟨"order"⟩, "a"⟩, ∅⟩,
      ⟨⟨⟨"billing.Vacme"⟩, ⟨"order"⟩, "a"⟩, ∅⟩, ⟨⟨⟨"billing.Xacme"⟩, ⟨"order"⟩, "a"⟩, ∅⟩]
    (.empty .standard 2)).2
  index := NamespaceIndex.empty.keep ⟨"billing.Eowner-at-example.com"⟩

theorem allTenants_exact_billing :
    ∃ tenants, ((multi ⟨["billing"], .tagged⟩).allTenants true billingIndexed).1 = .ok tenants ∧
      .value "acme" ∈ tenants ∧ .email "owner@example.com" ∈ tenants ∧
      .value "Xacme" ∉ tenants := by
  have haccepted : NamespaceConverter.tagged.prefixed "billing" = .ok ⟨["billing"], .tagged⟩ := rfl
  obtain ⟨tenants, -, hlisted, -, -, -, hmem⟩ := allTenants_exact (.prefixed .tagged haccepted)
    billingIndexed ⟨_, rfl⟩ (by
      intro space hspace
      rw [billingIndexed, NamespaceIndex.knows_keep, NamespaceIndex.knows_empty] at hspace
      obtain rfl := hspace.resolve_right Bool.false_ne_true
      decide)
    (by decide +kernel)
  refine ⟨tenants, hlisted, (hmem _).mpr ⟨⟨"billing.Vacme"⟩, by decide +kernel⟩,
    (hmem _).mpr ⟨⟨"billing.Eowner-at-example.com"⟩, by decide +kernel⟩, fun hin => ?_⟩
  obtain ⟨space, hresolve, hspace⟩ := (hmem _).mp hin
  obtain rfl : ⟨"billing.VXacme"⟩ = space := Except.ok.inj hresolve
  revert hspace
  decide +kernel

end NamespaceResolver

end DocumentStore
