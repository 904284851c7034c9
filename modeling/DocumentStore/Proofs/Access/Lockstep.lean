import DocumentStore.Proofs.Access.Agreement
import DocumentStore.Proofs.Access.Remaining
set_option autoImplicit false

/-!
# Streams read in lockstep

A stream of visible documents gives the same items on connections that agree.  Readers there have
different fuel, because the stores hold different numbers of documents; neither runs out of it.
-/

namespace DocumentStore

open DocumentStore.Action (Respects)

variable {visible : Entity → Prop} {c c' : Connection}

/-! ## Walks -/

namespace Walk

variable {w : Walk}

theorem selects_takeAtHand (w : Walk) : w.takeAtHand.rest.query.selects = w.query.selects := by
  unfold takeAtHand
  split <;> rfl

theorem selects_pull (w : Walk) (c : Connection) :
    (w.pull c).1.rest.query.selects = w.query.selects := by
  rcases w.pull_cases c with ⟨-, hp⟩ | ⟨-, -, hp⟩ | ⟨-, -, r, c', -, ⟨e, -, hp⟩ | ⟨page, -, hp⟩⟩ <;>
    rw [hp]
  · exact w.selects_takeAtHand
  · rfl
  · rfl
  · exact selects_takeAtHand _

theorem pull_within (hw : w.query.Within visible) (c : Connection) :
    (w.pull c).1.rest.query.Within visible := by
  unfold EntityQuery.Within
  rw [w.selects_pull c]
  exact hw

theorem pull_alike (hw : w.query.Within visible) (h : c.Agree visible c') :
    Alike (Connection.Agree visible) (w.pull c) (w.pull c') := by
  unfold pull
  split
  · exact ⟨rfl, h⟩
  · split
    · exact ⟨rfl, h⟩
    · obtain ⟨r, t, t', hr, hr', ht⟩ := (Connection.runQuery_respects w.policy
        (q := { w.query with limit := some w.nextLimit }) hw c c' h).exists_eq
      rw [hr, hr']
      cases r with
      | error e => exact ⟨rfl, ht⟩
      | ok page => exact ⟨rfl, ht⟩

theorem collectFrom_alike {fuel fuel' : Nat} (hw : w.query.Within visible) (h : c.Agree visible c')
    (hfuel : w.toCome c.store < fuel) (hfuel' : w.toCome c'.store < fuel') :
    Alike (Connection.Agree visible) (collectFrom fuel w c) (collectFrom fuel' w c') := by
  induction fuel generalizing fuel' w c c' with
  | zero => exact absurd hfuel (Nat.not_lt_zero _)
  | succ fuel ih =>
    cases fuel' with
    | zero => exact absurd hfuel' (Nat.not_lt_zero _)
    | succ fuel' =>
      obtain ⟨⟨item, w'⟩, t, t', hp, hp', ht⟩ := (pull_alike hw h).exists_eq
      have hw' := pull_within hw c
      rw [hp] at hw'
      unfold collectFrom
      rw [hp, hp']
      cases item with
      | none => exact ⟨rfl, ht⟩
      | some item =>
        cases item with
        | error e => exact ⟨rfl, ht⟩
        | ok e =>
          have hless := Nat.lt_of_lt_of_le (toCome_after h.idle hp) (Nat.le_of_lt_succ hfuel)
          have hless' := Nat.lt_of_lt_of_le (toCome_after h.idle' hp') (Nat.le_of_lt_succ hfuel')
          obtain ⟨r, u, u', hr, hr', hu⟩ := (ih hw' ht hless hless').exists_eq
          dsimp only
          rw [hr, hr']
          cases r with
          | error e => exact ⟨rfl, hu⟩
          | ok more => exact ⟨rfl, hu⟩

theorem collect_respects (hw : w.query.Within visible) :
    Respects (Connection.Agree visible) w.collect := fun _ _ h =>
  collectFrom_alike hw h (Nat.lt_succ_of_le (w.toCome_le _)) (Nat.lt_succ_of_le (w.toCome_le _))

end Walk

/-! ## Streams -/

namespace EntityStream

/-- Whether a stream looks at nothing but visible documents. -/
def Within (visible : Entity → Prop) : EntityStream → Prop
  | .walk w => w.query.Within visible
  | .sifted _ _ walks => ∀ w ∈ walks, w.query.Within visible
  | .merged walks _ _ => ∀ w ∈ walks, w.query.Within visible
  | .found _ _ keys _ _ _ => ∀ k ∈ keys, k.Within visible
  | _ => True

theorem pullSifted_within (sieve : Sieve) {fuel : Nat} {seen : List Mark} {walks : List Walk}
    (h : ∀ w ∈ walks, w.query.Within visible) (c : Connection) :
    (pullSifted sieve fuel seen walks c).1.rest.Within visible := by
  induction fuel generalizing seen walks c with
  | zero => exact trivial
  | succ fuel ih =>
    cases walks with
    | nil => exact trivial
    | cons w walks =>
      obtain ⟨hw, hwalks⟩ := List.forall_mem_cons.mp h
      have hw' := Walk.pull_within hw c
      unfold pullSifted
      rcases hp : w.pull c with ⟨⟨item, w'⟩, c'⟩
      rw [hp] at hw'
      have hall : ∀ w ∈ w' :: walks, w.query.Within visible :=
        List.forall_mem_cons.mpr ⟨hw', hwalks⟩
      cases item with
      | none => exact ih hwalks c'
      | some item =>
        cases item with
        | error e => exact hall
        | ok e =>
          dsimp only
          split
          · exact ih hall c'
          · split
            · exact ih hall c'
            · exact hall

theorem pullCollected_within (x : Action Connection (List Entity)) (c : Connection) :
    (pullCollected x c).1.rest.Within visible := by
  unfold pullCollected
  rcases x c with ⟨e | items, c'⟩
  · exact trivial
  · cases items <;> exact trivial

theorem pull_within {stream : EntityStream} (h : stream.Within visible) (c : Connection) :
    (stream.pull c).1.rest.Within visible := by
  cases stream with
  | ended => exact trivial
  | failing e => exact trivial
  | walk w =>
    have hw := Walk.pull_within h c
    rw [pull]
    rcases hp : w.pull c with ⟨⟨_ | item, w'⟩, c'⟩ <;> rw [hp] at hw
    · exact trivial
    · exact hw
  | sifted sieve seen walks => exact pullSifted_within sieve h c
  | merged walks order limit => exact pullCollected_within _ c
  | found policy label keys filters order limit => exact pullCollected_within _ c
  | ready items => cases items <;> exact trivial

theorem collectWalks_respects {walks : List Walk} (h : ∀ w ∈ walks, w.query.Within visible) :
    Respects (Connection.Agree visible) (collectWalks walks) := by
  induction walks with
  | nil => exact .pure []
  | cons w rest ih =>
    obtain ⟨hw, hrest⟩ := List.forall_mem_cons.mp h
    exact (Walk.collect_respects hw).bind fun _ => (ih hrest).bind fun _ => .pure _

theorem pullCollected_alike {x : Action Connection (List Entity)}
    (hx : Respects (Connection.Agree visible) x) (h : c.Agree visible c') :
    Alike (Connection.Agree visible) (pullCollected x c) (pullCollected x c') := by
  obtain ⟨r, t, t', hr, hr', ht⟩ := (hx c c' h).exists_eq
  unfold pullCollected
  rw [hr, hr']
  cases r with
  | error e => exact ⟨rfl, ht⟩
  | ok items => exact ⟨rfl, ht⟩

theorem pullSifted_alike (sieve : Sieve) {fuel fuel' : Nat} {seen : List Mark} {walks : List Walk}
    (hwalks : ∀ w ∈ walks, w.query.Within visible) (h : c.Agree visible c')
    (hfuel : Walk.itemsAll c.store walks < fuel) (hfuel' : Walk.itemsAll c'.store walks < fuel') :
    Alike (Connection.Agree visible) (pullSifted sieve fuel seen walks c)
      (pullSifted sieve fuel' seen walks c') := by
  induction fuel generalizing fuel' seen walks c c' with
  | zero => exact absurd hfuel (Nat.not_lt_zero _)
  | succ fuel ih =>
    cases fuel' with
    | zero => exact absurd hfuel' (Nat.not_lt_zero _)
    | succ fuel' =>
      cases walks with
      | nil => exact ⟨rfl, h⟩
      | cons w walks =>
        obtain ⟨hw, hrest⟩ := List.forall_mem_cons.mp hwalks
        obtain ⟨⟨item, w'⟩, t, t', hp, hp', ht⟩ := (Walk.pull_alike hw h).exists_eq
        have hw' := Walk.pull_within hw c
        rw [hp] at hw'
        have hkept : ∀ w ∈ w' :: walks, w.query.Within visible :=
          List.forall_mem_cons.mpr ⟨hw', hrest⟩
        unfold pullSifted
        rw [hp, hp']
        cases item with
        | none =>
          exact ih hrest ht
            (Nat.lt_of_lt_of_le (Walk.itemsAll_ended h.idle hp) (Nat.le_of_lt_succ hfuel))
            (Nat.lt_of_lt_of_le (Walk.itemsAll_ended h.idle' hp') (Nat.le_of_lt_succ hfuel'))
        | some item =>
          cases item with
          | error e => exact ⟨rfl, ht⟩
          | ok e =>
            have hskipped : Alike (Connection.Agree visible)
                (pullSifted sieve fuel seen (w' :: walks) t)
                (pullSifted sieve fuel' seen (w' :: walks) t') :=
              ih hkept ht
                (Nat.lt_of_lt_of_le (Walk.itemsAll_after h.idle hp) (Nat.le_of_lt_succ hfuel))
                (Nat.lt_of_lt_of_le (Walk.itemsAll_after h.idle' hp') (Nat.le_of_lt_succ hfuel'))
            dsimp only
            split
            · exact hskipped
            · split
              · exact hskipped
              · exact ⟨rfl, ht⟩

theorem pull_alike {stream : EntityStream} (hwithin : stream.Within visible)
    (h : c.Agree visible c') :
    Alike (Connection.Agree visible) (stream.pull c) (stream.pull c') := by
  cases stream with
  | ended => exact ⟨rfl, h⟩
  | failing e => exact ⟨rfl, h⟩
  | walk w =>
    obtain ⟨⟨item, w'⟩, t, t', hp, hp', ht⟩ := (Walk.pull_alike hwithin h).exists_eq
    rw [pull, pull, hp, hp']
    cases item with
    | none => exact ⟨rfl, ht⟩
    | some item => exact ⟨rfl, ht⟩
  | sifted sieve seen walks =>
    exact pullSifted_alike sieve hwithin h (Nat.lt_succ_of_le (Walk.itemsAll_le ..))
      (Nat.lt_succ_of_le (Walk.itemsAll_le ..))
  | merged walks order limit =>
    exact pullCollected_alike ((collectWalks_respects hwithin).bind fun _ => .pure _) h
  | found policy label keys filters order limit =>
    exact pullCollected_alike ((Connection.lookup_respects policy label hwithin).bind
      fun _ => .pure _) h
  | ready items => exact ⟨rfl, h⟩

/-- One pull on connections that agree: the same item and the same rest of the stream, with fewer items
to come on both if there was one. -/
theorem pull_lockstep {policy : Policy} {stream : EntityStream} (huses : stream.Uses policy)
    (hwithin : stream.Within visible) (h : c.Agree visible c') :
    ∃ item rest t t', stream.pull c = (⟨item, rest⟩, t) ∧ stream.pull c' = (⟨item, rest⟩, t') ∧
      t.Agree visible t' ∧ rest.Uses policy ∧ rest.Within visible ∧
      (item ≠ none → rest.items t.store < stream.items c.store ∧
        rest.items t'.store < stream.items c'.store) := by
  obtain ⟨⟨item, rest⟩, t, t', hp, hp', ht⟩ := (pull_alike hwithin h).exists_eq
  have huses' := pull_uses huses c
  have hwithin' := pull_within hwithin c
  rw [hp] at huses' hwithin'
  refine ⟨item, rest, t, t', hp, hp', ht, huses', hwithin', fun hitem => ?_⟩
  obtain ⟨entity, rfl⟩ := Option.ne_none_iff_exists'.mp hitem
  exact ⟨items_after h.idle huses hp, items_after h.idle' huses hp'⟩

end EntityStream

/-! ## Readers -/

namespace ItemStream

variable {α : Type} {stream : ItemStream α} {policy : Policy}

/-- A reader that takes as many items as another, or that like the other takes all of them. -/
theorem take_alike {count count' : Nat} (huses : stream.source.Uses policy)
    (hwithin : stream.source.Within visible) (h : c.Agree visible c')
    (hcount : count = count' ∨
      stream.source.items c.store < count ∧ stream.source.items c'.store < count') :
    ∃ d rest t t', stream.take count c = (d, rest, t) ∧ stream.take count' c' = (d, rest, t') ∧
      t.Agree visible t' := by
  induction count generalizing count' stream c c' with
  | zero =>
    obtain rfl : 0 = count' := hcount.resolve_right fun hless => Nat.not_lt_zero _ hless.1
    exact ⟨_, _, c, c', rfl, rfl, h⟩
  | succ count ih =>
    obtain ⟨count', rfl⟩ : ∃ n, count' = n + 1 := by
      cases count' with
      | zero => omega
      | succ n => exact ⟨n, rfl⟩
    obtain ⟨item, source, t, t', hp, hp', ht, huses', hwithin', hless⟩ :=
      EntityStream.pull_lockstep huses hwithin h
    change (ItemStream.mk source stream.read).source.Uses policy at huses'
    unfold take
    rw [hp, hp']
    cases item with
    | none => exact ⟨_, _, t, t', rfl, rfl, ht⟩
    | some item =>
      obtain ⟨hless, hless'⟩ := hless (Option.some_ne_none item)
      have hcount' : count = count' ∨
          source.items t.store < count ∧ source.items t'.store < count' :=
        hcount.imp Nat.succ.inj fun hall =>
          ⟨Nat.lt_of_lt_of_le hless (Nat.le_of_lt_succ hall.1),
            Nat.lt_of_lt_of_le hless' (Nat.le_of_lt_succ hall.2)⟩
      obtain ⟨d, rest, u, u', hu, hu', hagree⟩ :=
        ih huses' hwithin' ht hcount'
      dsimp only
      rw [hu, hu']
      exact ⟨_, _, u, u', rfl, rfl, hagree⟩

theorem drain_alike (huses : stream.source.Uses policy) (hwithin : stream.source.Within visible)
    (h : c.Agree visible c') :
    ∃ d rest t t', stream.drain c = (d, rest, t) ∧ stream.drain c' = (d, rest, t') ∧
      t.Agree visible t' :=
  take_alike huses hwithin h (.inr ⟨Nat.lt_succ_of_le (stream.source.items_le _),
    Nat.lt_succ_of_le (stream.source.items_le _)⟩)

end ItemStream

end DocumentStore
