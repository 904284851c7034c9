import DocumentStore.Proofs.Tenancy.Known
import DocumentStore.Proofs.Tenancy.Tenants
set_option autoImplicit false

/-!
# Deployments with different prefixes

Names behind a prefix are names without one too if the prefix begins with the letter of a type of
tenants: a prefix may hold anything but at signs and the reserved sequence, and so may the value of a
tenant.  Two deployments with different prefixes share a namespace exactly if the prefix of one is
continued by that of the other with such a letter.
-/

namespace DocumentStore

namespace NamespaceConverter

variable {c c' : NamespaceConverter}

/-- What stands in front of the name of every tenant. -/
def lead (c : NamespaceConverter) : List Char :=
  match c.prefixText? with
  | none => []
  | some text => text.toList ++ ['.']

theorem front_cons (text : String) (rest : List String) :
    front (text :: rest) = text.toList ++ '.' :: front rest := by
  rw [front, List.flatMap_cons, head, String.toList_append, List.append_assoc]
  rfl

theorem lead_eq_front (c : NamespaceConverter) : c.lead = front c.prefixes := by
  unfold lead prefixText?
  cases c.prefixes with
  | nil => rfl
  | cons text rest =>
    show (String.intercalate "." (text :: rest)).toList ++ ['.'] = front (text :: rest)
    induction rest generalizing text with
    | nil =>
      rw [String.intercalate_singleton, front_cons]
      rfl
    | cons next more ih =>
      rw [String.intercalate_cons_cons, front_cons, ← ih next]
      simp

/-- Different prefixes put different texts in front of names. -/
theorem prefixText?_eq_of_lead_eq (h : c.lead = c'.lead) : c.prefixText? = c'.prefixText? := by
  unfold lead at h
  cases hc : c.prefixText? with
  | none =>
    rw [hc] at h
    cases hc' : c'.prefixText? with
    | none => rfl
    | some text =>
      rw [hc'] at h
      exact absurd h.symm (by simp)
  | some text =>
    rw [hc] at h
    cases hc' : c'.prefixText? with
    | none =>
      rw [hc'] at h
      exact absurd h (by simp)
    | some text' =>
      rw [hc'] at h
      exact congrArg some (String.toList_inj.mp (List.append_cancel_right h))

/-- Whether names of tenants behind the prefix of `c'` may be names of tenants behind that of `c`,
since the prefix of `c'` goes on with the letter of a type of tenants where that of `c` ends. -/
def ContinuedBy (c c' : NamespaceConverter) : Prop :=
  ∃ tenant, c.lead ++ [TenantCodec.tag tenant] <+: c'.lead

theorem continuedBy_iff :
    c.ContinuedBy c' ↔
      c.lead ++ ['D'] <+: c'.lead ∨ c.lead ++ ['E'] <+: c'.lead ∨ c.lead ++ ['V'] <+: c'.lead := by
  constructor
  · rintro ⟨tenant, hstart⟩
    cases tenant with
    | domain _ => exact .inl hstart
    | email _ => exact .inr (.inl hstart)
    | value _ => exact .inr (.inr hstart)
  · rintro (hstart | hstart | hstart)
    · exact ⟨.domain "", hstart⟩
    · exact ⟨.email "", hstart⟩
    · exact ⟨.value "", hstart⟩

instance (c c' : NamespaceConverter) : Decidable (c.ContinuedBy c') :=
  decidable_of_iff _ continuedBy_iff.symm

theorem written_eq (c : NamespaceConverter) (tenant : Tenant) :
    c.written tenant = c.lead ++ TenantCodec.tag tenant :: tenant.rawValue.toList := by
  rw [written, lead_eq_front]

/-- A name behind two different prefixes. -/
theorem continuedBy_of_written_eq {tenant tenant' : Tenant} (h : c.written tenant = c'.written tenant')
    (hne : c.prefixText? ≠ c'.prefixText?) : c.ContinuedBy c' ∨ c'.ContinuedBy c := by
  rw [written_eq, written_eq] at h
  rcases List.append_eq_append_iff.mp h with ⟨more, hlead, hname⟩ | ⟨more, hlead, hname⟩
  · cases more with
    | nil => exact absurd (prefixText?_eq_of_lead_eq ((List.append_nil _).symm.trans hlead.symm)) hne
    | cons letter more =>
      obtain ⟨rfl, -⟩ := List.cons.inj hname
      refine .inl ⟨tenant, more, ?_⟩
      rw [hlead, List.append_assoc]
      rfl
  · cases more with
    | nil => exact absurd (prefixText?_eq_of_lead_eq (hlead.trans (List.append_nil _))) hne
    | cons letter more =>
      obtain ⟨rfl, -⟩ := List.cons.inj hname
      refine .inr ⟨tenant', more, ?_⟩
      rw [hlead, List.append_assoc]
      rfl

/-- A continued prefix makes every name behind the longer one a name behind the shorter one. -/
theorem ContinuedBy.exists_written_eq (h : c.ContinuedBy c') (tenant' : Tenant) :
    ∃ tenant, c.written tenant = c'.written tenant' := by
  obtain ⟨tenant, more, hlead⟩ := h
  let value := String.ofList (more ++ TenantCodec.tag tenant' :: tenant'.rawValue.toList)
  have hname (named : Tenant) (htag : TenantCodec.tag named = TenantCodec.tag tenant)
      (hvalue : named.rawValue = value) : c.written named = c'.written tenant' := by
    rw [written_eq, written_eq, htag, hvalue, String.toList_ofList, ← hlead]
    simp
  cases tenant with
  | domain _ => exact ⟨.domain value, hname _ rfl rfl⟩
  | email _ => exact ⟨.email value, hname _ rfl rfl⟩
  | value _ => exact ⟨.value value, hname _ rfl rfl⟩

end NamespaceConverter

namespace NamespaceResolver

open NamespaceConverter

variable {c c' : NamespaceConverter}

theorem continuedBy_of_restore (h : Layered c) (h' : Layered c')
    (hne : c.prefixText? ≠ c'.prefixText?) {tenant tenant' : Tenant} {space : Namespace}
    (htenant : (multi c).restore space = .ok tenant)
    (htenant' : (multi c').resolve tenant' = .ok space) : c.ContinuedBy c' ∨ c'.ContinuedBy c :=
  continuedBy_of_written_eq
    (((restore_eq_ok h).mp htenant).symm.trans ((resolve_eq_ok h').mp htenant').2) hne

/-- Every namespace of the longer prefix is one of the shorter prefix that it continues. -/
theorem exists_resolve_of_continuedBy (h : Layered c) (h' : Layered c')
    (hcontinued : c.ContinuedBy c') {tenant' : Tenant} {space : Namespace}
    (htenant' : (multi c').resolve tenant' = .ok space) :
    ∃ tenant, (multi c).resolve tenant = .ok space := by
  obtain ⟨hat, hname⟩ := (resolve_eq_ok h').mp htenant'
  obtain ⟨tenant, hwritten⟩ := hcontinued.exists_written_eq tenant'
  exact ⟨tenant, (resolve_eq_ok h).mpr ⟨hat, hname.trans hwritten.symm⟩⟩

/-- Some tenant has a namespace behind any prefix. -/
theorem exists_resolve (h : Layered c) : ∃ space, (multi c).resolve (.value "") = .ok space :=
  (isOk_resolve h).mpr Naming.not_ambiguous_nil

/-- Deployments with different prefixes have no namespace in common, unless the prefix of one goes on
with the letter of a type of tenants where that of the other ends.  If they have none in common, the
tenants that one of them lists are those of namespaces in which the other one never has data. -/
theorem disjoint_iff_not_continuedBy (h : Layered c) (h' : Layered c')
    (hne : c.prefixText? ≠ c'.prefixText?) :
    ((∀ tenant tenant' space, (multi c).resolve tenant = .ok space →
        (multi c').resolve tenant' ≠ .ok space) ↔ ¬c.ContinuedBy c' ∧ ¬c'.ContinuedBy c) ∧
    (¬c.ContinuedBy c' → ¬c'.ContinuedBy c →
      ∀ s tenants, ((multi c).allTenants true s).1 = .ok tenants → ∀ tenant ∈ tenants,
        ∃ space, (multi c).restore space = .ok tenant ∧
          ((multi c).allTenants true s).2.index.knows space = true ∧
          ∀ tenant', (multi c').resolve tenant' ≠ .ok space) := by
  have hat {tenant : Tenant} {space : Namespace} (hresolve : (multi c).resolve tenant = .ok space) :
      (multi c).restore space = .ok tenant :=
    (restore_eq_ok h).mpr ((resolve_eq_ok h).mp hresolve).2
  refine ⟨⟨fun hdisjoint => ⟨fun hcontinued => ?_, fun hcontinued => ?_⟩, ?_⟩, ?_⟩
  · obtain ⟨space, hspace⟩ := exists_resolve h'
    obtain ⟨tenant, htenant⟩ := exists_resolve_of_continuedBy h h' hcontinued hspace
    exact hdisjoint _ _ _ htenant hspace
  · obtain ⟨space, hspace⟩ := exists_resolve h
    obtain ⟨tenant', htenant'⟩ := exists_resolve_of_continuedBy h' h hcontinued hspace
    exact hdisjoint _ _ _ hspace htenant'
  · rintro ⟨hnot, hnot'⟩ tenant tenant' space htenant htenant'
    exact (continuedBy_of_restore h h' hne (hat htenant) htenant').elim hnot hnot'
  · intro hnot hnot' s tenants htenants tenant hmem
    obtain ⟨space, hrestore, hknows⟩ := exists_known_of_allTenants htenants hmem
    exact ⟨space, hrestore, hknows, fun tenant' htenant' =>
      (continuedBy_of_restore h h' hne hrestore htenant').elim hnot hnot'⟩

/-- A prefix that begins with no letter of a type of tenants keeps its namespaces apart from those
without a prefix. -/
theorem disjoint_iff_not_continuedBy_billing :
    NamespaceConverter.tagged.prefixed "billing" = .ok ⟨["billing"], .tagged⟩ ∧
      ∀ tenant tenant' space, (multi .tagged).resolve tenant = .ok space →
        (multi ⟨["billing"], .tagged⟩).resolve tenant' ≠ .ok space := by
  have haccepted : NamespaceConverter.tagged.prefixed "billing" = .ok ⟨["billing"], .tagged⟩ := rfl
  have hne : NamespaceConverter.tagged.prefixText? ≠
      NamespaceConverter.prefixText? ⟨["billing"], .tagged⟩ := by decide
  exact ⟨haccepted, (disjoint_iff_not_continuedBy .tagged (.prefixed .tagged haccepted) hne).1.mpr
    (by decide +kernel)⟩

/-- A store with one document, in the namespace of the tenant acme behind the prefix of a shop. -/
def shopStore : Store :=
  (Store.put [⟨⟨⟨"Dshop.Vacme"⟩, ⟨"order"⟩, "a"⟩, ∅⟩] (.empty .standard 2)).2

/-- A prefix that begins with the letter of domains is accepted, and its tenants have the namespaces
of domains without a prefix, which are listed as tenants there. -/
theorem shared_behind_prefix_of_domains :
    NamespaceConverter.tagged.prefixed "Dshop" = .ok ⟨["Dshop"], .tagged⟩ ∧
      NamespaceConverter.tagged.prefixText? ≠
        NamespaceConverter.prefixText? ⟨["Dshop"], .tagged⟩ ∧
      (multi ⟨["Dshop"], .tagged⟩).resolve (.value "acme") = .ok ⟨"Dshop.Vacme"⟩ ∧
      (multi .tagged).resolve (.domain "shop.Vacme") = .ok ⟨"Dshop.Vacme"⟩ ∧
      ((multi .tagged).allTenants true ⟨shopStore, .empty⟩).1 = .ok [.domain "shop.Vacme"] := by
  refine ⟨rfl, by decide, ?_, ?_, ?_⟩ <;> decide +kernel

end NamespaceResolver

end DocumentStore
