import DocumentStore.Access.Stream
import Mathlib.Data.List.Forall2
set_option autoImplicit false

/-!
# The same calls made in two ways

Two runs make the same calls, each under a policy of its own and from a state of its own.  If each
call has the same answer in both, or fails in both, and leaves states that belong together, then so
does whatever is put together from calls: walks, streams, and readers of them.  Failures need not be
the same in both runs; which of them go together is up to `alike`.
-/

namespace DocumentStore

/-! ## Matching outcomes -/

/-- Whether two outcomes are answers that go together, or failures that do. -/
inductive Outcome.Matches {α : Type} (alike : StorageError → StorageError → Prop)
    (same : α → α → Prop) : Outcome α → Outcome α → Prop where
  | ok {a a' : α} (h : same a a') : Matches alike same (.ok a) (.ok a')
  | error {e e' : StorageError} (h : alike e e') : Matches alike same (.error e) (.error e')

/-- Whether two actions, run from states that belong together, have outcomes that match and leave
states that belong together. -/
def Action.Matches {σ α : Type} (related : σ → σ → Prop) (alike : StorageError → StorageError → Prop)
    (same : α → α → Prop) (x x' : Action σ α) : Prop :=
  ∀ s s', related s s' → Outcome.Matches alike same (x s).1 (x' s').1 ∧ related (x s).2 (x' s').2

section Matches

variable {σ τ α β : Type} {related : σ → σ → Prop} {alike : StorageError → StorageError → Prop}
  {same : α → α → Prop} {x x' : Action σ α}

theorem Outcome.Matches.refl (halike : ∀ e, alike e e) (hsame : ∀ a, same a a) (r : Outcome α) :
    Outcome.Matches alike same r r := by
  cases r with
  | ok a => exact .ok (hsame a)
  | error e => exact .error (halike e)

theorem Outcome.Matches.eq {r r' : Outcome α} (h : Outcome.Matches Eq same r r')
    (hsame : ∀ a a', same a a' → a = a') : r = r' := by
  cases h with
  | ok h => rw [hsame _ _ h]
  | error h => rw [h]

namespace Action.Matches

/-- What two matching actions do: both answer, or both fail. -/
theorem cases (h : Action.Matches related alike same x x') {s s' : σ} (hs : related s s') :
    (∃ a a' t t', x s = (.ok a, t) ∧ x' s' = (.ok a', t') ∧ same a a' ∧ related t t') ∨
      ∃ e e' t t', x s = (.error e, t) ∧ x' s' = (.error e', t') ∧ alike e e' ∧ related t t' := by
  obtain ⟨hanswer, hstate⟩ := h s s' hs
  rcases hx : x s with ⟨r, t⟩
  rcases hx' : x' s' with ⟨r', t'⟩
  rw [hx, hx'] at hanswer hstate
  cases hanswer with
  | ok h => exact .inl ⟨_, _, t, t', rfl, rfl, h, hstate⟩
  | error h => exact .inr ⟨_, _, t, t', rfl, rfl, h, hstate⟩

theorem pure {a a' : α} (h : same a a') :
    Action.Matches related alike same (Pure.pure a) (Pure.pure a') :=
  fun _ _ hs => ⟨.ok h, hs⟩

theorem bind {follows : β → β → Prop} {f f' : α → Action σ β}
    (hx : Action.Matches related alike same x x')
    (hf : ∀ a a', same a a' → Action.Matches related alike follows (f a) (f' a')) :
    Action.Matches related alike follows (x >>= f) (x' >>= f') := by
  intro s s' hs
  rcases hx.cases hs with ⟨a, a', t, t', hr, hr', h, ht⟩ | ⟨e, e', t, t', hr, hr', h, ht⟩
  · rw [Action.bind_ok hr, Action.bind_ok hr']
    exact hf a a' h t t' ht
  · rw [Action.bind_error hr, Action.bind_error hr']
    exact ⟨.error h, ht⟩

/-- What follows two actions with the same answers. -/
theorem andThen {follows : β → β → Prop} {f f' : α → Action σ β}
    (hx : Action.Matches related alike Eq x x')
    (hf : ∀ a, Action.Matches related alike follows (f a) (f' a)) :
    Action.Matches related alike follows (x >>= f) (x' >>= f') :=
  hx.bind fun a _ h => h ▸ hf a

theorem onPart {relatedPart : τ → τ → Prop} {part : σ → τ} {restore : σ → τ → σ}
    {x x' : Action τ α} (hx : Action.Matches relatedPart alike same x x')
    (hpart : ∀ s s', related s s' → relatedPart (part s) (part s'))
    (hrestore : ∀ s s' t t', related s s' → relatedPart t t' →
      related (restore s t) (restore s' t')) :
    Action.Matches related alike same (Action.onPart part restore x)
      (Action.onPart part restore x') :=
  fun s s' hs =>
    have h := hx _ _ (hpart s s' hs)
    ⟨h.1, hrestore s s' _ _ hs h.2⟩

end Action.Matches

end Matches

/-! ## Calls -/

/-- Calls that match under two policies, from connections that belong together. -/
structure Connection.Simulation (related : Connection → Connection → Prop)
    (alike : StorageError → StorageError → Prop) (policy policy' : Policy) : Prop where
  refl : ∀ e, alike e e
  size : ∀ {c c'}, related c c' → c.store.size = c'.store.size
  lookup : ∀ keys label, Action.Matches related alike Eq
    (Connection.lookup policy keys label) (Connection.lookup policy' keys label)
  put : ∀ batch label, Action.Matches related alike Eq
    (Connection.put policy batch label) (Connection.put policy' batch label)
  delete : ∀ keys label, Action.Matches related alike Eq
    (Connection.delete policy keys label) (Connection.delete policy' keys label)
  runQuery : ∀ q, Action.Matches related alike Eq
    (Connection.runQuery policy q) (Connection.runQuery policy' q)

/-- Whether two items of a stream, or the lack of one, match. -/
abbrev Pulled.ItemMatches (alike : StorageError → StorageError → Prop) :
    Option (Outcome Entity) → Option (Outcome Entity) → Prop :=
  Option.Rel (Outcome.Matches alike Eq)

/-- Whether two pulls gave matching items, and left what differs in the policy alone. -/
structure Pulled.Matches {ω : Type} (related : Connection → Connection → Prop)
    (alike : StorageError → StorageError → Prop) (left right : ω → ω)
    (r r' : Pulled ω × Connection) : Prop where
  item : Pulled.ItemMatches alike r.1.item r'.1.item
  rest : ∃ w, r.1.rest = left w ∧ r'.1.rest = right w
  state : related r.2 r'.2

theorem Pulled.Matches.cases {ω : Type} {related : Connection → Connection → Prop}
    {alike : StorageError → StorageError → Prop} {left right : ω → ω}
    {r r' : Pulled ω × Connection} (h : Pulled.Matches related alike left right r r') :
    ∃ w c c', related c c' ∧
      ((r = (⟨none, left w⟩, c) ∧ r' = (⟨none, right w⟩, c')) ∨
        (∃ e, r = (⟨some (.ok e), left w⟩, c) ∧ r' = (⟨some (.ok e), right w⟩, c')) ∨
        ∃ e e', r = (⟨some (.error e), left w⟩, c) ∧ r' = (⟨some (.error e'), right w⟩, c') ∧
          alike e e') := by
  obtain ⟨⟨item, rest⟩, c⟩ := r
  obtain ⟨⟨item', rest'⟩, c'⟩ := r'
  obtain ⟨hitem, ⟨w, hrest, hrest'⟩, hc⟩ := h
  obtain rfl : rest = left w := hrest
  obtain rfl : rest' = right w := hrest'
  refine ⟨w, c, c', hc, ?_⟩
  rcases hitem with hitem | _
  · cases hitem with
    | ok h => exact .inr (.inl ⟨_, rfl, by rw [h]⟩)
    | error h => exact .inr (.inr ⟨_, _, rfl, rfl, h⟩)
  · exact .inl ⟨rfl, rfl⟩

variable {related : Connection → Connection → Prop} {alike : StorageError → StorageError → Prop}
  {policy policy' : Policy} {c c' : Connection}

/-! ## Walks -/

namespace Walk

/-- The walk whose calls are made under another policy. -/
def withPolicy (policy : Policy) (w : Walk) : Walk := { w with policy }

section WithPolicy

variable (policy : Policy) (w : Walk)

@[simp] theorem policy_withPolicy : (w.withPolicy policy).policy = policy := rfl

@[simp] theorem query_withPolicy : (w.withPolicy policy).query = w.query := rfl

@[simp] theorem atHand_withPolicy : (w.withPolicy policy).atHand = w.atHand := rfl

@[simp] theorem nextLimit_withPolicy : (w.withPolicy policy).nextLimit = w.nextLimit := rfl

theorem takeAtHand_withPolicy :
    (w.withPolicy policy).takeAtHand =
      ⟨w.takeAtHand.item, w.takeAtHand.rest.withPolicy policy⟩ := by
  rw [takeAtHand, takeAtHand, atHand_withPolicy]
  cases w.atHand <;> rfl

end WithPolicy

theorem takeAtHand_matches (halike : ∀ e, alike e e) (w : Walk) (h : related c c') :
    Pulled.Matches related alike (withPolicy policy) (withPolicy policy')
      ((w.withPolicy policy).takeAtHand, c) ((w.withPolicy policy').takeAtHand, c') := by
  rw [takeAtHand_withPolicy, takeAtHand_withPolicy]
  refine ⟨?_, ⟨_, rfl, rfl⟩, h⟩
  dsimp only
  cases w.takeAtHand.item with
  | none => exact .none
  | some item => exact .some (.refl halike (fun _ => rfl) item)

theorem pull_matches (hsim : Connection.Simulation related alike policy policy') (w : Walk)
    (h : related c c') :
    Pulled.Matches related alike (withPolicy policy) (withPolicy policy')
      ((w.withPolicy policy).pull c) ((w.withPolicy policy').pull c') := by
  unfold pull
  rw [atHand_withPolicy, atHand_withPolicy]
  cases w.atHand with
  | cons e rest => exact takeAtHand_matches hsim.refl w h
  | nil =>
    dsimp only
    by_cases hover : w.isOver = true
    · have hover' (p : Policy) : (w.withPolicy p).isOver = true := hover
      rw [if_pos (hover' policy), if_pos (hover' policy')]
      exact ⟨.none, ⟨w.finish, rfl, rfl⟩, h⟩
    · have hover' (p : Policy) : ¬(w.withPolicy p).isOver = true := hover
      rw [if_neg (hover' policy), if_neg (hover' policy')]
      simp only [policy_withPolicy, query_withPolicy, nextLimit_withPolicy]
      rcases (hsim.runQuery { w.query with limit := some w.nextLimit }).cases h with
        ⟨page, _, t, t', hr, hr', rfl, ht⟩ | ⟨e, e', t, t', hr, hr', he, ht⟩ <;> rw [hr, hr']
      · exact takeAtHand_matches hsim.refl (w.arrive page) ht
      · exact ⟨.some (.error he), ⟨w.finish, rfl, rfl⟩, ht⟩

theorem collectFrom_matches (hsim : Connection.Simulation related alike policy policy') (fuel : Nat)
    (w : Walk) :
    Action.Matches related alike Eq (collectFrom fuel (w.withPolicy policy))
      (collectFrom fuel (w.withPolicy policy')) := by
  induction fuel generalizing w with
  | zero => exact .pure rfl
  | succ fuel ih =>
    intro c c' h
    obtain ⟨w', t, t', ht, ⟨hp, hp'⟩ | ⟨e, hp, hp'⟩ | ⟨e, e', hp, hp', he⟩⟩ :=
      (pull_matches hsim w h).cases <;> simp only [collectFrom, hp, hp']
    · exact ⟨.ok rfl, ht⟩
    · rcases (ih w').cases ht with ⟨more, _, u, u', hr, hr', rfl, hu⟩ | ⟨e, e', u, u', hr, hr', he, hu⟩ <;>
        rw [hr, hr']
      · exact ⟨.ok rfl, hu⟩
      · exact ⟨.error he, hu⟩
    · exact ⟨.error he, ht⟩

theorem collect_matches (hsim : Connection.Simulation related alike policy policy') (w : Walk) :
    Action.Matches related alike Eq (w.withPolicy policy).collect (w.withPolicy policy').collect := by
  intro c c' h
  unfold collect bound
  rw [hsim.size h]
  exact collectFrom_matches hsim _ w c c' h

end Walk

/-! ## Streams -/

namespace EntityStream

/-- The stream whose calls are made under another policy. -/
def withPolicy (policy : Policy) : EntityStream → EntityStream
  | .ended => .ended
  | .failing e => .failing e
  | .walk w => .walk (w.withPolicy policy)
  | .sifted sieve seen walks => .sifted sieve seen (walks.map (·.withPolicy policy))
  | .merged walks order limit => .merged (walks.map (·.withPolicy policy)) order limit
  | .found _ label keys filters order limit => .found policy label keys filters order limit
  | .ready items => .ready items

theorem walksBound_withPolicy (policy : Policy) (size : Nat) (walks : List Walk) :
    walksBound size (walks.map (·.withPolicy policy)) = walksBound size walks := by
  induction walks with
  | nil => rfl
  | cons w rest ih => rw [List.map_cons, walksBound, walksBound, ih]; rfl

theorem bound_withPolicy (policy : Policy) (size : Nat) (s : EntityStream) :
    (s.withPolicy policy).bound size = s.bound size := by
  cases s with
  | sifted sieve seen walks => exact walksBound_withPolicy policy size walks
  | merged walks order limit => exact congrArg (· + 1) (walksBound_withPolicy policy size walks)
  | _ => rfl

theorem pullSifted_matches (hsim : Connection.Simulation related alike policy policy')
    (sieve : Sieve) (fuel : Nat) (seen : List Mark) (walks : List Walk) (h : related c c') :
    Pulled.Matches related alike (withPolicy policy) (withPolicy policy')
      (pullSifted sieve fuel seen (walks.map (·.withPolicy policy)) c)
      (pullSifted sieve fuel seen (walks.map (·.withPolicy policy')) c') := by
  induction fuel generalizing seen walks c c' with
  | zero => exact ⟨.none, ⟨.ended, rfl, rfl⟩, h⟩
  | succ fuel ih =>
    cases walks with
    | nil => exact ⟨.none, ⟨.ended, rfl, rfl⟩, h⟩
    | cons w walks =>
      rw [List.map_cons, List.map_cons, pullSifted, pullSifted]
      obtain ⟨w', t, t', ht, ⟨hp, hp'⟩ | ⟨e, hp, hp'⟩ | ⟨e, e', hp, hp', he⟩⟩ :=
        (Walk.pull_matches hsim w h).cases <;> rw [hp, hp']
      · exact ih seen walks ht
      · have hskipped := ih seen (w' :: walks) ht
        rw [List.map_cons, List.map_cons] at hskipped
        dsimp only
        split
        · exact hskipped
        · split
          · exact hskipped
          · exact ⟨.some (.ok rfl), ⟨.sifted sieve _ (w' :: walks), rfl, rfl⟩, ht⟩
      · exact ⟨.some (.error he), ⟨.sifted sieve seen (w' :: walks), rfl, rfl⟩, ht⟩

theorem collectWalks_matches (hsim : Connection.Simulation related alike policy policy')
    (walks : List Walk) :
    Action.Matches related alike Eq (collectWalks (walks.map (·.withPolicy policy)))
      (collectWalks (walks.map (·.withPolicy policy'))) := by
  induction walks with
  | nil => exact .pure rfl
  | cons w rest ih =>
    exact (Walk.collect_matches hsim w).andThen fun _ => ih.andThen fun _ => .pure rfl

theorem pullCollected_matches {x x' : Action Connection (List Entity)}
    (hx : Action.Matches related alike Eq x x') (h : related c c') :
    Pulled.Matches related alike (withPolicy policy) (withPolicy policy')
      (pullCollected x c) (pullCollected x' c') := by
  unfold pullCollected
  rcases hx.cases h with ⟨items, _, t, t', hr, hr', rfl, ht⟩ | ⟨e, e', t, t', hr, hr', he, ht⟩ <;>
    rw [hr, hr']
  · cases items with
    | nil => exact ⟨.none, ⟨.ended, rfl, rfl⟩, ht⟩
    | cons e rest => exact ⟨.some (.ok rfl), ⟨.ready rest, rfl, rfl⟩, ht⟩
  · exact ⟨.some (.error he), ⟨.ended, rfl, rfl⟩, ht⟩

theorem pull_matches (hsim : Connection.Simulation related alike policy policy') (s : EntityStream)
    (h : related c c') :
    Pulled.Matches related alike (withPolicy policy) (withPolicy policy')
      ((s.withPolicy policy).pull c) ((s.withPolicy policy').pull c') := by
  cases s with
  | ended => exact ⟨.none, ⟨.ended, rfl, rfl⟩, h⟩
  | failing e => exact ⟨.some (.error (hsim.refl e)), ⟨.ended, rfl, rfl⟩, h⟩
  | walk w =>
    rw [withPolicy, withPolicy, pull, pull]
    obtain ⟨w', t, t', ht, ⟨hp, hp'⟩ | ⟨e, hp, hp'⟩ | ⟨e, e', hp, hp', he⟩⟩ :=
      (Walk.pull_matches hsim w h).cases <;> rw [hp, hp']
    · exact ⟨.none, ⟨.ended, rfl, rfl⟩, ht⟩
    · exact ⟨.some (.ok rfl), ⟨.walk w', rfl, rfl⟩, ht⟩
    · exact ⟨.some (.error he), ⟨.walk w', rfl, rfl⟩, ht⟩
  | sifted sieve seen walks =>
    rw [withPolicy, withPolicy, pull, pull, walksBound_withPolicy, walksBound_withPolicy, hsim.size h]
    exact pullSifted_matches hsim sieve _ seen walks h
  | merged walks order limit =>
    exact pullCollected_matches ((collectWalks_matches hsim walks).andThen fun _ => .pure rfl) h
  | found _ label keys filters order limit =>
    exact pullCollected_matches ((hsim.lookup keys label).andThen fun _ => .pure rfl) h
  | ready items =>
    cases items with
    | nil => exact ⟨.none, ⟨.ended, rfl, rfl⟩, h⟩
    | cons e rest => exact ⟨.some (.ok rfl), ⟨.ready rest, rfl, rfl⟩, h⟩

end EntityStream

/-! ## Readers -/

/-- Whether two readers saw matching items, and both saw the end or neither did. -/
structure Drained.Matches {α : Type} (alike : StorageError → StorageError → Prop)
    (d d' : Drained α) : Prop where
  items : List.Forall₂ (Outcome.Matches alike Eq) d.items d'.items
  ended : d.ended = d'.ended

theorem Drained.Matches.eq {α : Type} {d d' : Drained α} (h : d.Matches Eq d') : d = d' := by
  have hitems : d.items = d'.items :=
    List.forall₂_eq_eq_eq ▸ h.items.imp fun _ _ hitem => hitem.eq fun _ _ => id
  obtain ⟨items, ended⟩ := d
  obtain ⟨items', ended'⟩ := d'
  exact congrArg₂ Drained.mk hitems h.ended

namespace ItemStream

variable {α : Type}

/-- The stream whose calls are made under another policy. -/
def withPolicy (policy : Policy) (s : ItemStream α) : ItemStream α :=
  { s with source := s.source.withPolicy policy }

@[simp] theorem source_withPolicy (policy : Policy) (s : ItemStream α) :
    (s.withPolicy policy).source = s.source.withPolicy policy := rfl

@[simp] theorem read_withPolicy (policy : Policy) (s : ItemStream α) :
    (s.withPolicy policy).read = s.read := rfl

theorem take_matches (hsim : Connection.Simulation related alike policy policy') (count : Nat)
    (s : ItemStream α) (h : related c c') :
    ∃ (d d' : Drained α) (rest : ItemStream α) (t t' : Connection),
      (s.withPolicy policy).take count c = (d, rest.withPolicy policy, t) ∧
      (s.withPolicy policy').take count c' = (d', rest.withPolicy policy', t') ∧
      rest.read = s.read ∧ d.Matches alike d' ∧ related t t' := by
  induction count generalizing s c c' with
  | zero => exact ⟨_, _, s, c, c', rfl, rfl, rfl, ⟨.nil, rfl⟩, h⟩
  | succ count ih =>
    obtain ⟨source, t, t', ht, hcases⟩ := (EntityStream.pull_matches hsim s.source h).cases
    obtain ⟨d, d', rest, u, u', hd, hd', hread, hdrained, hu⟩ := ih { s with source } ht
    have hmore (p : Policy) : { s.withPolicy p with source := source.withPolicy p } =
        ({ s with source } : ItemStream α).withPolicy p := rfl
    rcases hcases with ⟨hp, hp'⟩ | ⟨e, hp, hp'⟩ | ⟨e, e', hp, hp', he⟩ <;>
      simp only [take, source_withPolicy, hp, hp', hmore]
    · exact ⟨_, _, { s with source }, t, t', rfl, rfl, rfl, ⟨.nil, rfl⟩, ht⟩
    · simp only [hd, hd', read_withPolicy]
      have hitem := Outcome.Matches.refl hsim.refl (fun _ => rfl) (rest.read e)
      exact ⟨_, _, rest, u, u', rfl, rfl, hread, ⟨.cons hitem hdrained.items, hdrained.ended⟩, hu⟩
    · simp only [hd, hd']
      exact ⟨_, _, rest, u, u', rfl, rfl, hread, ⟨.cons (.error he) hdrained.items, hdrained.ended⟩, hu⟩

theorem drain_matches (hsim : Connection.Simulation related alike policy policy')
    (s : ItemStream α) (h : related c c') :
    ∃ (d d' : Drained α) (rest : ItemStream α) (t t' : Connection),
      (s.withPolicy policy).drain c = (d, rest.withPolicy policy, t) ∧
      (s.withPolicy policy').drain c' = (d', rest.withPolicy policy', t') ∧
      rest.read = s.read ∧ d.Matches alike d' ∧ related t t' := by
  simp only [drain, source_withPolicy, EntityStream.bound_withPolicy, hsim.size h]
  exact take_matches hsim _ s h

end ItemStream

end DocumentStore
