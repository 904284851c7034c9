import DocumentStore.Proofs.Store.Staging
set_option autoImplicit false

/-!
# Stores that calls cannot tell apart

A relation of stores is a congruence if related stores let the same calls in, hold the same documents
under some keys and list the same for some queries, and what calls leave behind is related again.  The
calls with these keys and queries then run alike on related stores, in a transaction or not.  The
counters do not matter to any call, as `Store.SameState.congruence` says.
-/

namespace DocumentStore

universe u

/-! ## Runs side by side -/

/-- Whether two runs gave the same answer and left related states. -/
structure Alike {σ : Type} {β : Type u} (related : σ → σ → Prop) (r r' : β × σ) : Prop where
  answer : r.1 = r'.1
  state : related r.2 r'.2

/-- Whether an action runs alike from related states. -/
def Action.Respects {σ α : Type} (related : σ → σ → Prop) (x : Action σ α) : Prop :=
  ∀ s s', related s s' → Alike related (x s) (x s')

theorem Alike.exists_eq {σ : Type} {β : Type u} {related : σ → σ → Prop} {r r' : β × σ}
    (h : Alike related r r') : ∃ b s s', r = (b, s) ∧ r' = (b, s') ∧ related s s' :=
  ⟨r.1, r.2, r'.2, rfl, Prod.ext h.answer.symm rfl, h.state⟩

namespace Action.Respects

variable {σ τ α β : Type} {related : σ → σ → Prop}

theorem ofOutcome (r : Outcome α) : Respects related (Action.ofOutcome r) :=
  fun _ _ h => ⟨rfl, h⟩

theorem pure (a : α) : Respects related (Pure.pure a) := fun _ _ h => ⟨rfl, h⟩

theorem gets {f : σ → α} (hf : ∀ s s', related s s' → f s = f s') :
    Respects related (Action.gets f) :=
  fun s s' h => ⟨congrArg Except.ok (hf s s' h), h⟩

theorem modify {f : σ → σ} (hf : ∀ s s', related s s' → related (f s) (f s')) :
    Respects related (Action.modify f) :=
  fun s s' h => ⟨rfl, hf s s' h⟩

theorem bind {x : Action σ α} {f : α → Action σ β} (hx : Respects related x)
    (hf : ∀ a, Respects related (f a)) : Respects related (x >>= f) := by
  intro s s' h
  obtain ⟨r, t, t', hr, hr', ht⟩ := (hx s s' h).exists_eq
  rw [Action.bind_apply, Action.bind_apply, hr, hr']
  cases r with
  | error e => exact ⟨rfl, ht⟩
  | ok a => exact hf a t t' ht

theorem onPart {relatedPart : τ → τ → Prop} {part : σ → τ} {restore : σ → τ → σ} {x : Action τ α}
    (hx : Respects relatedPart x) (hpart : ∀ s s', related s s' → relatedPart (part s) (part s'))
    (hrestore : ∀ s s' t t', related s s' → relatedPart t t' →
      related (restore s t) (restore s' t')) :
    Respects related (Action.onPart part restore x) := by
  intro s s' h
  obtain ⟨r, t, t', hr, hr', ht⟩ := (hx _ _ (hpart s s' h)).exists_eq
  unfold Action.onPart
  rw [hr, hr']
  exact ⟨rfl, hrestore s s' t t' h ht⟩

end Action.Respects

open DocumentStore.Action (Respects)

/-- A relation of stores that the calls with some keys, and the queries of some kind, respect. -/
structure Store.Congruence (keys : Key → Prop) (queries : EntityQuery → Prop)
    (related : Store → Store → Prop) : Prop where
  limits : ∀ {s s'}, related s s' → s.limits = s'.limits
  takeFailure : ∀ point, Respects related (Store.takeFailure point)
  counted : ∀ {s s'}, related s s' → ∀ kind,
    related { s with calls := s.calls.bump kind } { s' with calls := s'.calls.bump kind }
  found : ∀ {s s'}, related s s' → ∀ {k : Key}, keys k → s.find? k = s'.find? k
  page : ∀ {s s'}, related s s' → ∀ {q : EntityQuery}, queries q → ∀ offset,
    s.page q offset = s'.page q offset
  write : ∀ {s s'}, related s s' → ∀ ws, related (s.write ws) (s'.write ws)
  begun : ∀ {s s'}, related s s' →
    related { s with active := s.active + 1 } { s' with active := s'.active + 1 }
  release : ∀ {s s'}, related s s' → ∀ t, related (s.release t) (s'.release t)

/-- Whether the stores are related and the transactions have staged the same. -/
structure Staging.Related (related : Store → Store → Prop) (g g' : Staging) : Prop where
  store : related g.store g'.store
  transaction : g.transaction = g'.transaction

variable {visible : Key → Prop} {queries : EntityQuery → Prop} {related : Store → Store → Prop}

theorem Staging.ensureActive_related : Respects (Related related) ensureActive := by
  refine (Respects.gets fun _ _ h => congrArg (·.finished) h.transaction).bind fun finished => ?_
  cases finished
  · exact .pure _
  · exact .ofOutcome _

theorem Staging.onStore_related {α : Type} {x : Action Store α} (hx : Respects related x) :
    Respects (Related related) (onStore x) :=
  .onPart hx (fun _ _ h => h.store) fun _ _ _ _ h ht => ⟨ht, h.transaction⟩

namespace Store.Congruence

variable (hcong : Congruence visible queries related)

include hcong

/-! ## Calls on the store -/

theorem enter (kind : CallKind) : Respects related (Store.enter kind) :=
  (Respects.modify fun _ _ h => hcong.counted h kind).bind fun _ => hcong.takeFailure _

omit hcong in
theorem guardLimit (limit requested : Nat) : Respects related (Store.guardLimit limit requested) := by
  unfold Store.guardLimit
  split
  · exact .ofOutcome _
  · exact .pure ()

/-- Whether a call that writes is let in. -/
theorem guardWrite (kind : CallKind) (count : Nat) :
    Respects related (do
      Store.enter kind
      Store.guardLimit (← Action.gets (·.limits.write)) count) :=
  (hcong.enter kind).bind fun _ =>
    (Respects.gets fun _ _ h => congrArg (·.write) (hcong.limits h)).bind fun _ => guardLimit _ _

theorem lookup {keys : List Key} (hkeys : ∀ k ∈ keys, visible k) :
    Respects related (Store.lookup keys) :=
  (hcong.enter .lookup).bind fun _ =>
    (Respects.gets fun _ _ h => congrArg (·.read) (hcong.limits h)).bind fun _ =>
      (guardLimit _ _).bind fun _ =>
        .gets fun _ _ h => List.map_congr_left fun k hk => hcong.found h (hkeys k hk)

theorem put (batch : List Entity) : Respects related (Store.put batch) := by
  refine (hcong.enter .put).bind fun _ =>
    (Respects.gets fun _ _ h => congrArg (·.write) (hcong.limits h)).bind fun _ =>
      (guardLimit _ _).bind fun _ => .modify fun s s' h => ?_
  rw [foldl_put1, foldl_put1]
  exact hcong.write h _

theorem delete (keys : List Key) : Respects related (Store.delete keys) := by
  refine (hcong.enter .delete).bind fun _ =>
    (Respects.gets fun _ _ h => congrArg (·.write) (hcong.limits h)).bind fun _ =>
      (guardLimit _ _).bind fun _ => .modify fun s s' h => ?_
  rw [foldl_delete1, foldl_delete1]
  exact hcong.write h _

theorem runQuery {q : EntityQuery} (hq : queries q) : Respects related (Store.runQuery q) :=
  (hcong.enter .query).bind fun _ =>
    (Respects.ofOutcome _).bind fun offset => .gets fun _ _ h => hcong.page h hq offset

theorem beginTransaction : Respects related Store.beginTransaction :=
  (hcong.takeFailure .start).bind fun _ =>
    (Respects.modify fun _ _ h => hcong.begun h).bind fun _ => .pure _

/-! ## Calls in a transaction -/

theorem stagedLookup {keys : List Key} (hkeys : ∀ k ∈ keys, visible k) :
    Respects (Staging.Related related) (Staging.lookup keys) :=
  Staging.ensureActive_related.bind fun _ =>
    (Staging.onStore_related (hcong.lookup hkeys)).bind fun _ =>
      .gets fun _ _ h => by rw [h.transaction]

theorem stagedPut (batch : List Entity) :
    Respects (Staging.Related related) (Staging.put batch) :=
  Staging.ensureActive_related.bind fun _ =>
    (Staging.onStore_related (hcong.guardWrite .put _)).bind fun _ =>
      .modify fun _ _ h => ⟨h.store, by rw [h.transaction]⟩

theorem stagedDelete (keys : List Key) :
    Respects (Staging.Related related) (Staging.delete keys) :=
  Staging.ensureActive_related.bind fun _ =>
    (Staging.onStore_related (hcong.guardWrite .delete _)).bind fun _ =>
      .modify fun _ _ h => ⟨h.store, by rw [h.transaction]⟩

theorem stagedQuery {q : EntityQuery} (hq : queries q) :
    Respects (Staging.Related related) (Staging.runQuery q) :=
  Staging.ensureActive_related.bind fun _ => Staging.onStore_related (hcong.runQuery hq)

theorem released {g g' : Staging} (h : Staging.Related related g g') :
    related (g.store.release g.transaction) (g'.store.release g'.transaction) := by
  rw [h.transaction]
  exact hcong.release h.store g'.transaction

theorem commit : Respects (Staging.Related related) Staging.commit :=
  Staging.ensureActive_related.bind fun _ =>
    (Staging.onStore_related (hcong.takeFailure .commit)).bind fun _ => .modify fun g g' h => by
      refine ⟨hcong.released ⟨?_, h.transaction⟩, rfl⟩
      rw [h.transaction]
      exact hcong.write h.store g'.transaction.staged.entries

theorem rollback : Respects (Staging.Related related) Staging.rollback :=
  (Staging.onStore_related (hcong.takeFailure .rollback)).bind fun _ =>
    Staging.ensureActive_related.bind fun _ => .modify fun _ _ h => ⟨hcong.released h, rfl⟩

end Store.Congruence

/-! ## Counters -/

/-- Two stores that differ at most in the calls that were counted. -/
structure Store.SameState (s s' : Store) : Prop extends Store.SameData s s' where
  failures : s'.failures = s.failures

/-- What calls do does not depend on how many calls were counted. -/
theorem Store.SameState.congruence : Congruence (fun _ => True) (fun _ => True) SameState where
  limits h := h.limits.symm
  takeFailure point s s' h := by
    unfold Store.takeFailure
    rw [h.failures]
    split
    · exact ⟨rfl, ⟨h.documents, h.limits, h.pageLimit, h.active⟩, rfl⟩
    · exact ⟨rfl, h⟩
  counted h _ := ⟨⟨h.documents, h.limits, h.pageLimit, h.active⟩, h.failures⟩
  found h _ _ := by rw [Store.find?, Store.find?, h.documents]
  page h _ _ _ := by simp only [Store.page, Store.results_congr h.documents, h.pageLimit]
  write h ws := ⟨h.toSameData.write ws, h.failures⟩
  begun h := ⟨⟨h.documents, h.limits, h.pageLimit, congrArg (· + 1) h.active⟩, h.failures⟩
  release h t := by
    unfold Store.release
    split
    · exact h
    · exact ⟨⟨h.documents, h.limits, h.pageLimit, congrArg (· - 1) h.active⟩, h.failures⟩

end DocumentStore
