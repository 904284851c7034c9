import DocumentStore.Proofs.Access.Answers
import DocumentStore.Proofs.Access.Remaining
import DocumentStore.Proofs.Access.Scopes
set_option autoImplicit false

/-!
# What a handle sees

A look-up of a handle sees the documents of the store, with the writes over them that the handle's open
transaction has staged, if it has one.  A write is redundant if what it says of its key is seen
already.  Redundant writes, however they reach the store and whichever calls fail, leave the documents
and what is seen of them as they are.
-/

namespace DocumentStore

/-- Whether a write says of its key what is seen already. -/
def Write.Redundant (seen : Key → Option Entity) (w : Write) : Prop :=
  seen w.1 = w.2.map (Entity.mk w.1)

/-! ## Documents and staged writes -/

theorem Write.applyAll_redundant {s : Store} {ws : List Write}
    (h : ∀ w ∈ ws, w.Redundant s.find?) : applyAll s.documents ws = s.documents := by
  induction ws with
  | nil => rfl
  | cons w rest ih =>
    obtain ⟨hw, hrest⟩ := List.forall_mem_cons.mp h
    have hbound : s.documents.get? w.1 = w.2 := by
      have hmapped : (s.documents.get? w.1).map (Entity.mk w.1) = w.2.map (Entity.mk w.1) := hw
      exact Option.map_injective (fun _ _ heq => congrArg Entity.properties heq) hmapped
    have hsame : Staging.applyWrite s.documents w.1 w.2 = s.documents := by
      apply SortedMap.ext_get?
      intro k
      rw [get?_applyWrite]
      split
      · next hkey => rw [hkey, hbound]
      · rfl
    rw [applyAll, List.foldl_cons, hsame]
    exact ih hrest

theorem Staging.view_stage (t : Transaction) (w : Write) (k : Key) (committed : Option Entity) :
    view (stage t w.1 w.2) k committed =
      if k = w.1 then w.2.map (Entity.mk w.1) else view t k committed := by
  rw [view, stage, SortedMap.get?_insert]
  by_cases hkey : k = w.1
  · rw [if_pos hkey, if_pos hkey, hkey]
  · rw [if_neg hkey, if_neg hkey, view]

theorem Staging.view_stageAll_redundant {committed : Key → Option Entity} {t : Transaction}
    {ws : List Write} (h : ∀ w ∈ ws, w.Redundant fun k => view t k (committed k)) (k : Key) :
    view (stageAll t ws) k (committed k) = view t k (committed k) := by
  induction ws generalizing t with
  | nil => rfl
  | cons w rest ih =>
    obtain ⟨hw, hrest⟩ := List.forall_mem_cons.mp h
    have hsame : (fun k => view (stage t w.1 w.2) k (committed k)) =
        fun k => view t k (committed k) := by
      funext k
      rw [view_stage]
      split
      · next hkey => rw [hkey, ← hw]
      · rfl
    rw [← hsame] at hrest
    exact (ih hrest).trans (congrFun hsame k)

/-! ## Sessions -/

namespace Session

variable {s s' : Session}

theorem Did.view_of_redundant {ws : List Write} (h : Did ws s s')
    (hws : ∀ w ∈ ws, w.Redundant s.view) : s'.view = s.view := by
  unfold Did at h
  cases ht : s.transaction with
  | none =>
    rw [ht] at h
    rw [view_of_none ht] at hws ⊢
    have hdocuments := h.2.documents.trans (Write.applyAll_redundant hws)
    rw [view_of_none h.1, Store.find?_congr hdocuments]
  | some t =>
    rw [ht] at h
    rw [view_of_some ht] at hws ⊢
    rw [view_of_some h.1, Store.find?_congr h.2.documents]
    exact funext (Staging.view_stageAll_redundant hws)

/-- A look-up call that is answered finds what is seen. -/
theorem lookupCall_eq_ok {keys : List Key} {found : List (Option Entity)} (hs : s.Unfinished)
    (h : (call .lookup (Store.lookup keys) (Staging.lookup keys) s).1 = .ok found) :
    found = keys.map s.view := by
  have hdocuments := (Store.sameData_admission .lookup keys.length s.store).documents
  unfold call at h
  cases ht : s.transaction with
  | none =>
    rw [ht] at h
    dsimp only at h
    rw [Store.lookup_eq] at h
    obtain ⟨_, -, h⟩ := Action.bind_eq_ok h
    cases h
    dsimp only
    rw [view_of_none ht, Store.find?_congr hdocuments]
  | some t =>
    rw [ht] at h
    dsimp only at h
    rw [Staging.lookup_unfinished (g := ⟨s.store, t⟩) (hs t ht)] at h
    rcases hr : Store.admission .lookup keys.length s.store with ⟨e | _, store⟩ <;>
      rw [hr] at h hdocuments
    · cases h
    · cases h
      rw [view_of_some ht, ← Store.find?_congr hdocuments]

/-- A look-up that is answered finds what is seen. -/
theorem lookupChunks_eq_ok {parts : List (List Key)} {found : List (Option Entity)}
    (hs : s.Unfinished) (h : (lookupChunks parts s).1 = .ok found) :
    found = parts.flatten.map s.view := by
  induction parts generalizing s found with
  | nil =>
    cases h
    rfl
  | cons keys rest ih =>
    have hperformed := Performs.call .lookup (Store.lookup_makes keys) (Staging.lookup_stages keys) s hs
    obtain ⟨first, hfirst, h⟩ := Action.bind_eq_ok h
    obtain ⟨more, hmore, h⟩ := Action.bind_eq_ok h
    cases h
    obtain ⟨done, -, hdid, hdone⟩ := hperformed.effect
    obtain rfl := hdone first hfirst
    rw [lookupCall_eq_ok hs hfirst, ih (hdid.unfinished hs) hmore, hdid.view, List.flatten_cons,
      List.map_append]

end Session

/-! ## Connections -/

namespace Connection

/-- The transaction that the handle's calls go to, if one is open. -/
def openTransaction (c : Connection) : Option Transaction :=
  match c.slot with
  | .active t => some t
  | _ => none

/-- A handle has a transaction open, or its slot is inactive. -/
theorem active_or_inactive (c : Connection) :
    (∃ t, c.slot = .active t) ∨ c.slot.isActive = false := by
  cases c.slot with
  | active t => exact .inl ⟨t, rfl⟩
  | idle | committed | rolledBack => exact .inr rfl

/-- An entity as a look-up of the handle sees it. -/
def view (c : Connection) : Key → Option Entity := (c.session c.openTransaction).view

theorem view_of_inactive {c : Connection} (hidle : c.slot.isActive = false) :
    c.view = c.store.find? := by
  refine Session.view_of_none ?_
  unfold openTransaction
  cases hslot : c.slot with
  | active t =>
    rw [hslot] at hidle
    cases hidle
  | idle | committed | rolledBack => rfl

theorem view_of_active {c : Connection} {t : Transaction} (ht : c.slot = .active t) :
    c.view = fun k => Staging.view t k (c.store.find? k) := by
  refine Session.view_of_some ?_
  rw [openTransaction, ht]
  rfl

/-- Whether the documents, and what is seen of them, are as before. -/
structure SeesSame (c c' : Connection) : Prop where
  documents : c'.store.documents = c.store.documents
  view : c'.view = c.view
  usable : c'.slot.Usable

theorem SeesSame.trans {c c' c'' : Connection} (h : SeesSame c c') (h' : SeesSame c' c'') :
    SeesSame c c'' where
  documents := h'.documents.trans h.documents
  view := h'.view.trans h.view
  usable := h'.usable

section Execute

variable {α : Type} {body : Action Session α} {c : Connection} (husable : c.slot.Usable)

include husable

theorem executeIn_redundant {ws : List Write} (hbody : Session.Performs body ws)
    (hws : ∀ w ∈ ws, w.Redundant c.view) {t : Transaction} (ht : c.slot = .active t)
    (operation : OperationKind) : SeesSame c (executeIn operation t body c).2 := by
  have hfinished := husable t ht
  obtain ⟨done, hamong, hdid, -⟩ := (hbody (c.session (some t)) fun t' ht' =>
    Option.some.inj ht' ▸ hfinished).effect
  have hview := hdid.view_of_redundant fun w hw => by
    have hredundant := hws w (hamong.subset hw)
    rw [view, openTransaction, ht] at hredundant
    exact hredundant
  obtain ⟨ht', hdata⟩ := hdid
  unfold executeIn
  dsimp only
  rw [ht']
  refine ⟨hdata.documents, ?_, fun t' hslot => ?_⟩
  · rw [Session.view_of_some ht', Session.view_of_some rfl] at hview
    rw [view_of_active rfl, view_of_active ht]
    exact hview
  · obtain rfl := Slot.active.inj hslot
    exact (Staging.stageAll_finished ..).trans hfinished

theorem execute_redundant {ws : List Write} (hbody : Session.Performs body ws)
    (hws : ∀ w ∈ ws, w.Redundant c.view) (policy : Policy) (operation : OperationKind)
    (label : String) : SeesSame c (execute policy operation label body c).2 := by
  rcases c.active_or_inactive with ⟨t, ht⟩ | hidle
  · unfold execute
    rw [ht]
    split
    · exact ⟨rfl, rfl, husable⟩
    · exact executeIn_redundant husable hbody hws ht operation
  · obtain ⟨done, hamong, hwrote⟩ := execute_wrote hbody hidle policy operation label
    rw [view_of_inactive hidle] at hws
    have hdocuments := hwrote.sameData.documents.trans
      (Write.applyAll_redundant fun w hw => hws w (hamong.subset hw))
    refine ⟨hdocuments, ?_, hwrote.slot ▸ husable⟩
    rw [view_of_inactive hidle, view_of_inactive (hwrote.slot ▸ hidle)]
    exact Store.find?_congr hdocuments

/-- An operation that was answered was answered by its calls, which saw what the handle sees. -/
theorem execute_eq_ok_seen {policy : Policy} {operation : OperationKind} {label : String} {a : α}
    (h : (execute policy operation label body c).1 = .ok a) :
    ∃ s : Session, s.Unfinished ∧ s.view = c.view ∧ (body s).1 = .ok a := by
  rcases c.active_or_inactive with ⟨t, ht⟩ | hidle
  · unfold execute at h
    rw [ht] at h
    split at h
    · cases h
    · refine ⟨c.session (some t), fun t' ht' => Option.some.inj ht' ▸ husable t ht, ?_, ?_⟩
      · rw [Session.view_of_some rfl, view_of_active ht]
        rfl
      · dsimp only [executeIn] at h
        rcases hr : body (c.session (some t)) with ⟨e | b, s⟩ <;> rw [hr] at h
        · cases h
        · exact h
  · obtain ⟨s, hdocuments, hunstaged, h⟩ := execute_eq_ok hidle h
    refine ⟨s, fun t ht => (by rw [hunstaged t ht]), ?_, h⟩
    rw [view_of_inactive hidle]
    cases ht : s.transaction with
    | none => rw [Session.view_of_none ht, Store.find?_congr hdocuments]
    | some t =>
      obtain rfl := hunstaged t ht
      rw [Session.view_of_some ht, Store.find?_congr hdocuments]
      rfl

/-- A look-up that is answered finds what the handle sees. -/
theorem lookup_eq_ok {policy : Policy} {keys : List Key} {label : String}
    {found : List (Option Entity)} (h : (lookup policy keys label c).1 = .ok found) :
    found = keys.map c.view := by
  obtain ⟨s, hs, hview, h⟩ := execute_eq_ok_seen husable h
  rw [Session.lookupChunks_eq_ok hs h, flatten_chunks, hview]

/-- Calls whose writes are redundant leave what the handle sees, whichever of them fail. -/
theorem Chain.seesSame {policy : Policy} {c' : Connection}
    (h : Chain policy (·.Redundant c.view) c c') : SeesSame c c' := by
  have hnone : ∀ w ∈ ([] : List Write), w.Redundant c.view := fun w hw => by cases hw
  have hcall {α : Type} {body : Action Session α} {ws : List Write} {c' : Connection}
      (ih : SeesSame c c') (hbody : Session.Performs body ws) (hws : ∀ w ∈ ws, w.Redundant c.view)
      (operation : OperationKind) (label : String) :
      SeesSame c (execute policy operation label body c').2 :=
    ih.trans (execute_redundant ih.usable hbody (ih.view ▸ hws) policy operation label)
  induction h with
  | refl => exact ⟨rfl, rfl, husable⟩
  | lookup keys label _ ih => exact hcall ih (Session.lookup_performs _ keys) hnone .read label
  | query q _ ih => exact hcall ih (Session.runQuery_performs q) hnone .read _
  | put batch label hbatch _ ih =>
    exact hcall ih (Session.put_performs _ batch) hbatch .write label
  | delete keys label hkeys _ ih =>
    exact hcall ih (Session.delete_performs _ keys) hkeys .write label

end Execute

end Connection

end DocumentStore
