import DocumentStore.Proofs.Tenancy.Naming
import DocumentStore.Tenancy.Resolver
import Mathlib.Data.List.Infix
set_option autoImplicit false

/-!
# Tenants and their namespaces

Behind any prefixes that were accepted, the tagged names of tenants and the names of namespaces
without an at sign belong together one to one, as far as there is a name for the tenant at all.
-/

namespace DocumentStore

namespace TenantCodec

theorem ofTag?_eq_some {c : Char} {value : String} {tenant : Tenant} :
    ofTag? c value = some tenant ↔ c = tag tenant ∧ value = tenant.rawValue := by
  unfold ofTag?
  constructor
  · intro h
    split at h <;> cases h <;> exact ⟨rfl, rfl⟩
  · rintro ⟨rfl, rfl⟩
    cases tenant <;> rfl

theorem tagged_encode_eq_ok {tenant : Tenant} {name : String} :
    tagged.encode tenant = .ok name ↔
      ¬Naming.reserved <:+: tenant.rawValue.toList ∧
        name.toList = tag tenant :: tenant.rawValue.toList := by
  rw [← Naming.hasReserved_iff]
  unfold tagged
  dsimp only
  by_cases h : Naming.hasReserved tenant.rawValue.toList = true
  · rw [if_pos h]
    exact iff_of_false (fun heq => nomatch heq) (fun hok => hok.1 h)
  · rw [if_neg h, and_iff_right h, Except.ok.injEq, ← String.toList_inj, String.toList_ofList]
    exact eq_comm

theorem tagged_decode_eq_ok {tenant : Tenant} {name : String} :
    tagged.decode name = .ok tenant ↔ name.toList = tag tenant :: tenant.rawValue.toList := by
  unfold tagged
  dsimp only
  cases hname : name.toList with
  | nil => simp
  | cons c rest =>
    have htext : rest = tenant.rawValue.toList ↔ String.ofList rest = tenant.rawValue := by
      rw [← String.toList_inj, String.toList_ofList]
    dsimp only
    rw [List.cons.injEq, htext, ← ofTag?_eq_some]
    cases ofTag? c (String.ofList rest) with
    | none => simp
    | some found => simp

end TenantCodec

namespace NamespaceConverter

/-! ## Prefixes -/

/-- The tagged converter behind prefixes that were accepted one after the other. -/
inductive Layered : NamespaceConverter → Prop
  | tagged : Layered .tagged
  | prefixed {c c' : NamespaceConverter} {text : String} :
      Layered c → c.prefixed text = .ok c' → Layered c'

/-- The text that prefixes put in front of names. -/
def front (prefixes : List String) : List Char := prefixes.flatMap fun text => (head text).toList

theorem prefixed_eq_ok {c c' : NamespaceConverter} {text : String} :
    c.prefixed text = .ok c' ↔ isPrefixText text = true ∧ c' = ⟨text :: c.prefixes, c.codec⟩ := by
  unfold prefixed
  by_cases h : isPrefixText text = true
  · rw [if_pos h, and_iff_right h, Except.ok.injEq]
    exact eq_comm
  · rw [if_neg h]
    exact iff_of_false (fun heq => nomatch heq) (fun haccepted => h haccepted.1)

theorem Layered.codec_eq {c : NamespaceConverter} (h : Layered c) : c.codec = .tagged := by
  induction h with
  | tagged => rfl
  | prefixed _ haccepted ih =>
    obtain ⟨-, rfl⟩ := prefixed_eq_ok.mp haccepted
    exact ih

theorem Layered.isPrefixText_of_mem {c : NamespaceConverter} (h : Layered c) :
    ∀ text ∈ c.prefixes, isPrefixText text = true := by
  induction h with
  | tagged => exact fun _ hmem => nomatch hmem
  | prefixed _ haccepted ih =>
    obtain ⟨htext, rfl⟩ := prefixed_eq_ok.mp haccepted
    exact List.forall_mem_cons.mpr ⟨htext, ih⟩

theorem not_ambiguous_of_isPrefixText {text : String} (h : isPrefixText text = true) :
    ¬Naming.Ambiguous text.toList := by
  simp only [isPrefixText, Bool.and_eq_true, Bool.not_eq_true', List.contains_eq_mem,
    decide_eq_false_iff_not] at h
  obtain ⟨⟨-, hat⟩, hreserved⟩ := h
  rintro (hpart | hpart)
  · rw [← Naming.hasReserved_iff, hreserved] at hpart
    cases hpart
  · exact hat (hpart.subset (by decide))

theorem toList_foldr_head (prefixes : List String) (name : String) :
    (prefixes.foldr (fun text name => head text ++ name) name).toList =
      front prefixes ++ name.toList := by
  induction prefixes with
  | nil => rfl
  | cons text rest ih =>
    rw [List.foldr_cons, String.toList_append, ih, front, front, List.flatMap_cons,
      List.append_assoc]

theorem stripPrefixes_eq_ok {prefixes : List String} {name tail : String} :
    stripPrefixes prefixes name = .ok tail ↔ name.toList = front prefixes ++ tail.toList := by
  induction prefixes generalizing name with
  | nil => rw [stripPrefixes, Except.ok.injEq, front, List.flatMap_nil, List.nil_append,
      String.toList_inj]
  | cons text rest ih =>
    rw [stripPrefixes, front, List.flatMap_cons, List.append_assoc]
    cases hstrip : (head text).toList.isPrefixOf? name.toList with
    | none =>
      refine iff_of_false (fun h => nomatch h) fun h => ?_
      rw [List.isPrefixOf?_eq_some_iff_append_eq.mpr h.symm] at hstrip
      cases hstrip
    | some after =>
      rw [← List.isPrefixOf?_eq_some_iff_append_eq.mp hstrip, List.append_cancel_left_eq]
      dsimp only
      rw [ih, String.toList_ofList, front]

/-- Prefixes that were accepted neither bring an ambiguity nor take part in one. -/
theorem ambiguous_front_append {prefixes : List String}
    (h : ∀ text ∈ prefixes, isPrefixText text = true) (name : List Char) :
    Naming.Ambiguous (front prefixes ++ name) ↔ Naming.Ambiguous name := by
  induction prefixes with
  | nil => rfl
  | cons text rest ih =>
    obtain ⟨htext, hrest⟩ := List.forall_mem_cons.mp h
    have hsplit : front (text :: rest) ++ name = text.toList ++ '.' :: (front rest ++ name) := by
      simp [front, head]
    rw [hsplit, Naming.ambiguous_append_cons (by decide) (by decide), ih hrest,
      or_iff_right (not_ambiguous_of_isPrefixText htext)]

/-! ## Names of tenants -/

/-- The characters of the name of a tenant. -/
def written (c : NamespaceConverter) (tenant : Tenant) : List Char :=
  front c.prefixes ++ TenantCodec.tag tenant :: tenant.rawValue.toList

theorem Layered.encode_eq_ok {c : NamespaceConverter} (h : Layered c) {tenant : Tenant}
    {name : String} :
    c.encode tenant = .ok name ↔
      ¬Naming.reserved <:+: tenant.rawValue.toList ∧ name.toList = c.written tenant := by
  unfold encode
  rw [h.codec_eq]
  constructor
  · intro hok
    obtain ⟨own, hown, hname⟩ := Outcome.bind_eq_ok hok
    obtain ⟨hreserved, htag⟩ := TenantCodec.tagged_encode_eq_ok.mp hown
    cases hname
    exact ⟨hreserved, by rw [toList_foldr_head, htag, written]⟩
  · rintro ⟨hreserved, hname⟩
    have hown := TenantCodec.tagged_encode_eq_ok.mpr
      ⟨hreserved, String.toList_ofList (l := TenantCodec.tag tenant :: tenant.rawValue.toList)⟩
    rw [hown]
    refine congrArg Except.ok (String.toList_inj.mp ?_)
    rw [toList_foldr_head, String.toList_ofList, hname, written]

theorem Layered.decode_eq_ok {c : NamespaceConverter} (h : Layered c) {tenant : Tenant}
    {name : String} : c.decode name = .ok tenant ↔ name.toList = c.written tenant := by
  unfold decode
  rw [h.codec_eq]
  constructor
  · intro hok
    obtain ⟨tail, htail, hread⟩ := Outcome.bind_eq_ok hok
    rw [stripPrefixes_eq_ok.mp htail, TenantCodec.tagged_decode_eq_ok.mp hread, written]
  · intro hname
    have htail : stripPrefixes c.prefixes name =
        .ok (String.ofList (TenantCodec.tag tenant :: tenant.rawValue.toList)) := by
      rw [stripPrefixes_eq_ok, hname, String.toList_ofList, written]
    rw [htail]
    exact TenantCodec.tagged_decode_eq_ok.mpr String.toList_ofList

theorem written_injective (c : NamespaceConverter) {a b : Tenant} (h : c.written a = c.written b) :
    a = b := by
  obtain ⟨htag, hvalue⟩ := List.cons.inj (List.append_cancel_left h)
  have hread := TenantCodec.ofTag?_eq_some.mpr ⟨htag, String.toList_inj.mp hvalue⟩
  rw [TenantCodec.ofTag?_eq_some.mpr ⟨rfl, rfl⟩, Option.some.injEq] at hread
  exact hread

theorem Layered.ambiguous_written {c : NamespaceConverter} (h : Layered c) (tenant : Tenant) :
    Naming.Ambiguous (c.written tenant) ↔ Naming.Ambiguous tenant.rawValue.toList := by
  rw [written, ambiguous_front_append h.isPrefixText_of_mem]
  have hreserved : TenantCodec.tag tenant ∉ Naming.reserved := by
    cases tenant <;> simp [TenantCodec.tag, Naming.reserved]
  have hmeeting : TenantCodec.tag tenant ∉ Naming.meeting := by
    cases tenant <;> simp [TenantCodec.tag, Naming.meeting]
  rw [← List.nil_append (TenantCodec.tag tenant :: _),
    Naming.ambiguous_append_cons hreserved hmeeting, or_iff_right Naming.not_ambiguous_nil]

end NamespaceConverter

namespace NamespaceResolver

open NamespaceConverter

variable {c : NamespaceConverter} {tenant : Tenant} {space : Namespace}

/-! ## Namespaces of tenants -/

theorem resolve_eq_ok (h : Layered c) :
    (multi c).resolve tenant = .ok space ↔
      '@' ∉ space.name.toList ∧ space.toEncoded.toList = c.written tenant := by
  constructor
  · intro hok
    obtain ⟨name, hname, hspace⟩ := Outcome.bind_eq_ok hok
    obtain ⟨hat, rfl⟩ := Namespace.ofEncoded_eq_ok.mp hspace
    exact ⟨hat, (h.encode_eq_ok.mp hname).2⟩
  · rintro ⟨hat, hname⟩
    have hspace : Namespace.ofEncoded space.toEncoded = .ok space :=
      Namespace.ofEncoded_eq_ok.mpr ⟨hat, rfl⟩
    -- a reserved sequence in the value would have been in the name, which was read back
    have hclear : ¬Naming.Ambiguous tenant.rawValue.toList := by
      rw [← h.ambiguous_written, ← hname]
      exact (Namespace.isOk_ofEncoded _).mp ⟨space, hspace⟩
    have hencode := h.encode_eq_ok.mpr ⟨fun hreserved => hclear (.inl hreserved), hname⟩
    rw [resolve, hencode, Outcome.ok_bind]
    exact hspace

theorem restore_eq_ok (h : Layered c) :
    (multi c).restore space = .ok tenant ↔ space.toEncoded.toList = c.written tenant :=
  h.decode_eq_ok

theorem isOk_resolve (h : Layered c) :
    (∃ space, (multi c).resolve tenant = .ok space) ↔
      ¬Naming.Ambiguous tenant.rawValue.toList := by
  rw [← h.ambiguous_written]
  constructor
  · rintro ⟨space, hspace⟩
    obtain ⟨hat, hname⟩ := (resolve_eq_ok h).mp hspace
    rw [← hname]
    exact (Namespace.isOk_ofEncoded _).mp ⟨space, Namespace.ofEncoded_eq_ok.mpr ⟨hat, rfl⟩⟩
  · intro hclear
    have hname : (String.ofList (c.written tenant)).toList = c.written tenant :=
      String.toList_ofList
    rw [← hname] at hclear
    obtain ⟨space, hspace⟩ := (Namespace.isOk_ofEncoded _).mpr hclear
    obtain ⟨hat, hencoded⟩ := Namespace.ofEncoded_eq_ok.mp hspace
    exact ⟨space, (resolve_eq_ok h).mpr ⟨hat, by rw [hencoded, hname]⟩⟩

theorem eq_of_resolve_eq {other : Tenant} (h : Layered c)
    (htenant : (multi c).resolve tenant = .ok space)
    (hother : (multi c).resolve other = .ok space) : tenant = other :=
  written_injective c
    (((resolve_eq_ok h).mp htenant).2.symm.trans ((resolve_eq_ok h).mp hother).2)

/-- Tenants and names without an at sign are matched one to one, whatever the prefixes: a tenant's
namespace is the one it is restored from.  A tenant has one unless its value holds the reserved
sequence, or most of it before an at sign. -/
theorem resolve_iff_restore (h : Layered c) :
    (∀ tenant space, '@' ∉ space.name.toList →
      ((multi c).resolve tenant = .ok space ↔ (multi c).restore space = .ok tenant)) ∧
    (∀ tenant other space, (multi c).resolve tenant = .ok space →
      (multi c).resolve other = .ok space → tenant = other) ∧
    (∀ tenant space, (multi c).resolve tenant = .ok space → '@' ∉ space.name.toList) ∧
    (∀ tenant, (∃ space, (multi c).resolve tenant = .ok space) ↔
      ¬"-at-".toList <:+: tenant.rawValue.toList ∧
        ¬"-at@".toList <:+: tenant.rawValue.toList) := by
  refine ⟨fun tenant space hat => ?_, fun tenant other space => eq_of_resolve_eq h,
    fun tenant space hok => ((resolve_eq_ok h).mp hok).1, fun tenant => ?_⟩
  · rw [resolve_eq_ok h, restore_eq_ok h, and_iff_right hat]
  · rw [isOk_resolve h, Naming.Ambiguous, not_or]
    rfl

/-- A prefix that ends in most of the reserved sequence is kept apart by the full stop. -/
theorem resolve_iff_restore_layered :
    (multi ⟨["billing-at", "eu"], .tagged⟩).restore ⟨"billing-at.eu.E-at-at-at-x"⟩ =
      .ok (.email "@at@x") ∧
    ¬∃ space, (multi ⟨["billing-at", "eu"], .tagged⟩).resolve (.value "x-at@y") = .ok space := by
  have hinner : tagged.prefixed "eu" = .ok ⟨["eu"], .tagged⟩ := rfl
  have houter : prefixed ⟨["eu"], .tagged⟩ "billing-at" = .ok ⟨["billing-at", "eu"], .tagged⟩ := rfl
  have hlayered := Layered.prefixed (.prefixed .tagged hinner) houter
  obtain ⟨hinverse, -, -, hdefined⟩ := resolve_iff_restore hlayered
  constructor
  · rw [← hinverse _ _ (by decide)]
    decide
  · rw [hdefined]
    decide

end NamespaceResolver

end DocumentStore
