import DocumentStore.Proofs.Access.Traffic
import DocumentStore.Proofs.Operation.Moves
set_option autoImplicit false

/-!
# Counters that agree with the store

The counters of a deployment and those of its store are moved in different places.  As long as the
store has no other users, both say the same after everything that can happen to the deployment: how
many data calls of each kind were made, and, beside the store, how many of these failed.
-/

namespace DocumentStore

namespace Deployment

/-! ## The data calls of a run -/

/-- Whether something that happens goes through the deployment, and makes the data calls of a list. -/
def Happening.Makes (d : Deployment) (log : List CallMade) : Happening → Prop
  | .move (@Move.step _ _ (.operate h caller op)) =>
    Connection.LoggedChain h.settings.policy (d.connection h) log
      (op.perform h.settings caller (d.context h)).2.connection
  | .move (@Move.pull _ policy h count stream _) =>
    ∃ c, Connection.LoggedChain policy (d.connection h) log c ∧
      (d.pull h count stream).2.2 = d.withConnection h c
  | .others _ => False
  | _ => log = []

/-- Whether things happen one after another and make the data calls of a list. -/
def MakesAll (d : Deployment) : List Happening → List CallMade → Prop
  | [], log => log = []
  | x :: rest, log =>
    ∃ first more, log = first ++ more ∧ x.Makes d first ∧ (x.apply d).MakesAll rest more

theorem Step.plans_anything {ι : Type} [RecordId ι] (s : Step ι) : s.Plans fun _ => True := by
  cases s with
  | operate h caller op => exact fun _ _ _ _ _ => trivial
  | openHandle | begin | commit | rollback | drop | failNext | close => trivial

/-- Whether the open transactions of handles can be used. -/
abbrev Usable (d : Deployment) : Prop := d.Holds (fun _ => True) fun _ => True

theorem Usable.connection {d : Deployment} (hd : d.Usable) (h : Handle) :
    (d.connection h).slot.Usable :=
  fun t ht => ((Holds.connection hd h).staged t ht).1

theorem Usable.happening {d : Deployment} (hd : d.Usable) (x : Happening) : (x.apply d).Usable := by
  have hkeeps : Write.Keeps (fun _ => True) fun _ => True := fun _ _ _ _ => trivial
  cases x with
  | move m =>
    cases m with
    | step s => exact Holds.step hd hkeeps s.plans_anything
    | pull h count stream huses =>
      obtain ⟨c, hchain, hpull⟩ := d.pull_eq h count huses
      obtain ⟨log, hlogged⟩ := hchain.exists_logged
      have hc := (Holds.connection hd h).chain hkeeps hlogged.chain
      have hkept := Holds.withConnection hd h hc
      rw [← hpull] at hkept
      exact hkept
  | inquire q =>
    obtain ⟨s, -, hd'⟩ := q.perform_eq d
    rw [Happening.apply, hd']
    exact ⟨trivial, hd.staged⟩
  | others store => exact ⟨trivial, hd.staged⟩

/-- What ends or begins a transaction counts nothing for the deployment either. -/
theorem tallies_onConnection {ι : Type} {d : Deployment} {h : Handle} {x : Action Connection Unit}
    (hx : Tallies [] (d.connection h).store (d.connection h).metrics (x (d.connection h)).2.store
      (x (d.connection h)).2.metrics) :
    Tallies [] d.store d.metrics
      ((onConnection h x >>= fun _ => pure (Answer.done (ι := ι))) d).2.store
      ((onConnection h x >>= fun _ => pure (Answer.done (ι := ι))) d).2.metrics := by
  rw [Action.snd_bind_pure]
  exact hx

/-- A step counts as the data calls that it makes. -/
theorem Happening.tallies {d : Deployment} (hd : d.Usable) {x : Happening} {log : List CallMade}
    (hx : x.Makes d log) :
    Tallies log d.store d.metrics (x.apply d).store (x.apply d).metrics := by
  cases x with
  | move m =>
    cases m with
    | @step ι _ s =>
      cases s with
      | operate h caller op => exact Connection.LoggedChain.tallies hx (hd.connection h)
      | begin h =>
        obtain rfl : log = [] := hx
        exact tallies_onConnection (Connection.beginScope_tallies (d.connection h))
      | commit h =>
        obtain rfl : log = [] := hx
        exact tallies_onConnection (Connection.commitScope_tallies (d.connection h))
      | rollback h =>
        obtain rfl : log = [] := hx
        exact tallies_onConnection (Connection.rollbackScope_tallies (d.connection h))
      | drop h =>
        obtain rfl : log = [] := hx
        exact Connection.dropScope_tallies (d.connection h)
      | openHandle | failNext | close =>
        obtain rfl : log = [] := hx
        exact .none rfl rfl rfl
    | pull h count stream huses =>
      obtain ⟨c, hchain, hpull⟩ := hx
      have htallies := hchain.tallies (hd.connection h)
      rw [Happening.apply, Move.perform]
      dsimp only
      rw [hpull]
      exact htallies
  | inquire q =>
    obtain rfl : log = [] := hx
    obtain ⟨s, hsurveyed, hd'⟩ := q.perform_eq d
    rw [Happening.apply, hd']
    exact .none hsurveyed.calls rfl rfl
  | others store => exact hx.elim

/-- Everything that goes through the deployment makes some data calls. -/
theorem Happening.exists_makes (d : Deployment) {x : Happening} (hown : ∀ store, x ≠ .others store) :
    ∃ log, x.Makes d log := by
  cases x with
  | move m =>
    cases m with
    | @step ι _ s =>
      cases s with
      | operate h caller op =>
        have hchain : Connection.Chain h.settings.policy (fun _ => True) (d.connection h) _ :=
          op.perform_chain h.settings caller (d.context h) fun _ _ _ _ => trivial
        exact hchain.exists_logged
      | openHandle | begin | commit | rollback | drop | failNext | close => exact ⟨[], rfl⟩
    | pull h count stream huses =>
      obtain ⟨c, hchain, hpull⟩ := d.pull_eq h count huses
      obtain ⟨log, hlogged⟩ := hchain.exists_logged
      exact ⟨log, c, hlogged, hpull⟩
  | inquire q => exact ⟨[], rfl⟩
  | others store => exact absurd rfl (hown store)

theorem exists_makesAll (d : Deployment) {happenings : List Happening}
    (hown : ∀ x ∈ happenings, ∀ store, x ≠ .others store) : ∃ log, d.MakesAll happenings log := by
  induction happenings generalizing d with
  | nil => exact ⟨[], rfl⟩
  | cons x rest ih =>
    obtain ⟨hx, hrest⟩ := List.forall_mem_cons.mp hown
    obtain ⟨first, hfirst⟩ := Happening.exists_makes d hx
    obtain ⟨more, hmore⟩ := ih (x.apply d) hrest
    exact ⟨_, first, more, rfl, hfirst, hmore⟩

/-- A run counts as the data calls that it makes. -/
theorem MakesAll.tallies {d : Deployment} (hd : d.Usable) {happenings : List Happening}
    {log : List CallMade} (h : d.MakesAll happenings log) :
    Tallies log d.store d.metrics (d.after happenings).store (d.after happenings).metrics := by
  induction happenings generalizing d log with
  | nil =>
    obtain rfl : log = [] := h
    exact .none rfl rfl rfl
  | cons x rest ih =>
    obtain ⟨first, more, rfl, hfirst, hmore⟩ := h
    exact (Happening.tallies hd hfirst).append (ih (hd.happening x) hmore)

/-- After everything that happens to a deployment whose store nobody else calls, the round trips of each
kind are the calls that the store has counted, and both are the data calls that were made of the kind;
the failures are those among them that failed. -/
theorem counters_exact {store : Store} {settings : StorageSettings} {mapping : ColumnMapping}
    {initial : Deployment} (hstart : start store settings mapping = .ok initial)
    (hfresh : store.calls = .zero) (happenings : List Happening)
    (hown : ∀ x ∈ happenings, ∀ store, x ≠ .others store) :
    (∃ log, initial.MakesAll happenings log) ∧
    ∀ log, initial.MakesAll happenings log → ∀ kind,
      (initial.after happenings).metrics.roundTrips.of kind =
          (initial.after happenings).store.calls.of kind ∧
        (initial.after happenings).store.calls.of kind = log.countP (·.isOf kind) ∧
        (initial.after happenings).metrics.failures.of kind = log.countP (·.failedOf kind) := by
  refine ⟨exists_makesAll initial hown, fun log hlog kind => ?_⟩
  obtain ⟨resolver, -, hinitial⟩ := Outcome.bind_eq_ok hstart
  cases hinitial
  obtain ⟨hcalls, hroundTrips, hfailures⟩ :=
    hlog.tallies ⟨trivial, fun t ht => (by cases ht)⟩
  have hnone : CallCounts.zero.of kind = 0 := by cases kind <;> rfl
  have hcalls := hcalls kind
  have hroundTrips := hroundTrips kind
  have hfailures := hfailures kind
  dsimp only at hcalls hroundTrips hfailures
  rw [hfresh] at hcalls
  rw [Metrics.zero, hnone, Nat.zero_add] at hroundTrips hfailures
  rw [hnone, Nat.zero_add] at hcalls
  exact ⟨hroundTrips.trans hcalls.symm, hcalls, hfailures⟩

/-- A write that the store refuses, and a read that it refuses in an open transaction. -/
def refusedCalls : List Happening :=
  let steps : List (Step String) :=
    [.openHandle ⟨"order"⟩, .failNext (.call .put) "full",
      .operate firstHandle default (.write ⟨"a", [], .ofList []⟩), .begin firstHandle,
      .operate firstHandle default (.write ⟨"a", [], .ofList []⟩), .failNext (.call .lookup) "lost",
      .operate firstHandle default (.read "a"), .commit firstHandle,
      .operate firstHandle default (.read "a")]
  steps.map fun step => .move (.step step)

theorem counters_exact_refusedCalls :
    ∃ log, freshDeployment.MakesAll refusedCalls log ∧
      log.countP (·.isOf .put) = 2 ∧ log.countP (·.failedOf .put) = 1 ∧
      log.countP (·.isOf .lookup) = 2 ∧ log.countP (·.failedOf .lookup) = 1 := by
  have hfresh : start (.empty .standard 10) .standard .builtin = .ok freshDeployment := rfl
  have hown : ∀ x ∈ refusedCalls, ∀ store, x ≠ .others store := by
    intro x hx store hothers
    obtain ⟨step, -, rfl⟩ := List.mem_map.mp hx
    cases hothers
  obtain ⟨⟨log, hlog⟩, hexact⟩ := counters_exact hfresh rfl refusedCalls hown
  obtain ⟨-, hputs, hfailedPuts⟩ := hexact log hlog .put
  obtain ⟨-, hlookups, hfailedLookups⟩ := hexact log hlog .lookup
  exact ⟨log, hlog, hputs.symm.trans (by decide +kernel), hfailedPuts.symm.trans (by decide +kernel),
    hlookups.symm.trans (by decide +kernel), hfailedLookups.symm.trans (by decide +kernel)⟩

end Deployment

end DocumentStore
