import DocumentStore.Proofs.Access.Ledgers
import DocumentStore.Proofs.Operation.Counters
import DocumentStore.Proofs.Operation.Registration
import Mathlib.Algebra.BigOperators.Group.Finset.Basic
set_option autoImplicit false

/-!
# The ledger of a deployment

The handles of a deployment share a store and its counters, and each has a transaction of its own.
Whatever happens to the deployment is entered in one ledger, beside which the calls are kept that the
open transactions hold.  After every run the documents are what the ledger makes of them; every
transaction that was begun is open or was counted once, as committed if its writes were applied and as
rolled back if they were not; and the entities that are counted as written are those of the calls that
took effect, of the calls that were lost, and of those that open transactions hold.
-/

namespace DocumentStore

open Finset (range)

namespace Deployment

/-! ## Standings -/

/-- The standing of a deployment whose open transactions hold calls, by their slots. -/
def standing (d : Deployment) (held : Nat → List DataCall) : Standing :=
  ⟨d.store.documents, d.metrics, d.slots.countP (·.isActive),
    ∑ i ∈ range d.slots.length, DataCall.entities (held i)⟩

/-- Whether the open transactions of handles hold these calls. -/
def HoldsCalls (d : Deployment) (held : Nat → List DataCall) : Prop :=
  ∀ h, (d.slotOf h).Holds (held h.slot)

/-- Whether a ledger leads from a deployment to another, with the calls that open transactions hold. -/
structure Books (ledger : List LedgerEntry) (d : Deployment) (held : Nat → List DataCall)
    (d' : Deployment) (held' : Nat → List DataCall) : Prop where
  accounts : Accounts ledger (d.standing held) (d'.standing held')
  holds : d'.HoldsCalls held'

section Change

variable {d : Deployment} {held : Nat → List DataCall} {h : Handle}

/-- The open transactions but for that of one handle stay as they are. -/
theorem countP_set_isActive {slot : Slot} (hslot : h.slot < d.slots.length ∨ slot.isActive = false) :
    (d.slots.set h.slot slot).countP (·.isActive) + (if (d.slotOf h).isActive then 1 else 0) =
      d.slots.countP (·.isActive) + if slot.isActive then 1 else 0 := by
  rcases Nat.lt_or_ge h.slot d.slots.length with hlt | hge
  · have hle := List.boole_getElem_le_countP (p := fun slot : Slot => slot.isActive) hlt
    rw [slotOf_of_lt hlt, List.countP_set hlt]
    omega
  · obtain hlt | hidle := hslot
    · omega
    · rw [slotOf_of_le hge, List.set_eq_of_length_le hge, hidle]
      rfl

theorem sum_update_held {left : List DataCall} (hslot : h.slot < d.slots.length ∨ left = held h.slot) :
    ∑ i ∈ range d.slots.length, DataCall.entities (Function.update held h.slot left i) +
        DataCall.entities (held h.slot) =
      ∑ i ∈ range d.slots.length, DataCall.entities (held i) + DataCall.entities left := by
  rcases hslot with hlt | rfl
  · have hmem := Finset.mem_range.mpr hlt
    have hothers : ∑ i ∈ (range d.slots.length).erase h.slot,
        DataCall.entities (Function.update held h.slot left i) =
        ∑ i ∈ (range d.slots.length).erase h.slot, DataCall.entities (held i) := by
      refine Finset.sum_congr rfl fun i hi => ?_
      rw [Function.update_of_ne (Finset.ne_of_mem_erase hi)]
    rw [← Finset.add_sum_erase _ _ hmem,
      ← Finset.add_sum_erase _ (fun i => DataCall.entities (held i)) hmem, hothers,
      Function.update_self]
    omega
  · rw [Function.update_eq_self]

/-- What is entered for the connection of a handle is entered for its deployment. -/
theorem Books.withConnection {ledger : List LedgerEntry} {c : Connection} {left : List DataCall}
    (hd : d.HoldsCalls held) (hbooks : Connection.Books ledger (d.connection h) (held h.slot) c left)
    (hslot : h.slot < d.slots.length ∨ c.slot.isActive = false) :
    Books ledger d held (d.withConnection h c) (Function.update held h.slot left) where
  accounts := by
    refine hbooks.accounts.beside ⟨rfl, rfl⟩ ⟨rfl, rfl⟩ (countP_set_isActive hslot) ?_
    have hlength : (d.withConnection h c).slots.length = d.slots.length := List.length_set ..
    rw [standing, hlength]
    refine sum_update_held ?_
    rcases Nat.lt_or_ge h.slot d.slots.length with hlt | hge
    · exact .inl hlt
    · have hidle := hslot.resolve_left (Nat.not_lt.mpr hge)
      have hheld := hd h
      rw [slotOf_of_le hge] at hheld
      exact .inr ((hbooks.holds.eq_nil hidle).trans (Eq.symm hheld))
  holds h' := by
    rw [slotOf_withConnection]
    by_cases hsame : h'.slot = h.slot
    · rw [hsame, Function.update_self]
      split
      · exact hbooks.holds
      · next hnot =>
        have hge : d.slots.length ≤ h.slot := Nat.le_of_not_lt fun hlt => hnot ⟨rfl, hlt⟩
        have hidle := hslot.resolve_left (Nat.not_lt.mpr hge)
        rw [slotOf_of_le (hsame ▸ hge)]
        exact hbooks.holds.eq_nil hidle
    · rw [if_neg (fun hboth => hsame hboth.1), Function.update_of_ne hsame]
      exact hd h'

end Change

/-! ## What happens -/

/-- Whether a transaction is opened, if this is what happens, on a handle that was handed out. -/
def Happening.OnHandle (d : Deployment) : Happening → Prop
  | .move (@Move.step _ _ (.begin h)) => h.slot < d.slots.length
  | _ => True

instance (d : Deployment) (x : Happening) : Decidable (x.OnHandle d) :=
  match x with
  | .move (@Move.step _ _ (.begin h)) => inferInstanceAs (Decidable (h.slot < d.slots.length))
  | .move (@Move.step _ _ (.openHandle _)) | .move (@Move.step _ _ (.operate _ _ _))
  | .move (@Move.step _ _ (.commit _)) | .move (@Move.step _ _ (.rollback _))
  | .move (@Move.step _ _ (.drop _)) | .move (@Move.step _ _ (.failNext _ _))
  | .move (@Move.step _ _ .close) | .move (.pull _ _ _ _) | .inquire _ | .others _ =>
    inferInstanceAs (Decidable True)

/-- Whether transactions are opened on handles that were handed out. -/
def OnHandles (d : Deployment) : List Happening → Prop
  | [] => True
  | x :: rest => x.OnHandle d ∧ (x.apply d).OnHandles rest

instance decidableOnHandles (d : Deployment) : (happenings : List Happening) →
    Decidable (d.OnHandles happenings)
  | [] => inferInstanceAs (Decidable True)
  | x :: rest =>
    have := decidableOnHandles (x.apply d) rest
    inferInstanceAs (Decidable (x.OnHandle d ∧ (x.apply d).OnHandles rest))

/-- Whether something happens of which a ledger is entered, with the calls that open transactions hold
before and after it. -/
def Happening.Enters (d : Deployment) (held : Nat → List DataCall) (ledger : List LedgerEntry)
    (held' : Nat → List DataCall) : Happening → Prop
  | .move (@Move.step _ _ (.operate h caller op)) =>
    ∃ left, Connection.BookedChain h.settings.policy (d.connection h) (held h.slot) ledger
        (op.perform h.settings caller (d.context h)).2.connection left ∧
      held' = Function.update held h.slot left
  | .move (@Move.step _ _ (.begin h)) => ledger = (d.connection h).enterBegin ∧ held' = held
  | .move (@Move.step _ _ (.commit h)) =>
    ledger = (d.connection h).enterCommit (held h.slot) ∧ held' = Function.update held h.slot []
  | .move (@Move.step _ _ (.rollback h)) | .move (@Move.step _ _ (.drop h)) =>
    ledger = (d.connection h).enterEnd (held h.slot) ∧ held' = Function.update held h.slot []
  | .move (@Move.pull _ policy h count stream _) =>
    ∃ c left, Connection.BookedChain policy (d.connection h) (held h.slot) ledger c left ∧
      (d.pull h count stream).2.2 = d.withConnection h c ∧ held' = Function.update held h.slot left
  | .others store => ledger = [.others store.documents] ∧ held' = held
  | _ => ledger = [] ∧ held' = held

/-- Whether things happen one after another of which a ledger is entered. -/
def EntersAll (d : Deployment) (held : Nat → List DataCall) :
    List Happening → List LedgerEntry → (Nat → List DataCall) → Prop
  | [], ledger, held' => ledger = [] ∧ held' = held
  | x :: rest, ledger, held' => ∃ first more between, ledger = first ++ more ∧
      x.Enters d held first between ∧ (x.apply d).EntersAll between rest more held'

section Happenings

variable {d : Deployment} {held held' : Nat → List DataCall} {ledger : List LedgerEntry}

/-- What opens no transaction leaves a handle that was not handed out without one. -/
theorem handedOut_or_inactive {h : Handle} {slot : Slot}
    (hslot : slot.isActive = (d.slotOf h).isActive ∨ slot.isActive = false) :
    h.slot < d.slots.length ∨ slot.isActive = false := by
  rcases Nat.lt_or_ge h.slot d.slots.length with hlt | hge
  · exact .inl hlt
  · rw [slotOf_of_le hge] at hslot
    exact .inr (hslot.elim id id)

/-- A chain of a handle's calls is entered for its deployment. -/
theorem Books.chain {policy : Policy} {h : Handle} {c : Connection} {left : List DataCall}
    (hd : d.HoldsCalls held)
    (hchain : Connection.BookedChain policy (d.connection h) (held h.slot) ledger c left) :
    Books ledger d held (d.withConnection h c) (Function.update held h.slot left) := by
  obtain ⟨log, hlogged⟩ := hchain.exists_logged
  have hkept := hlogged.chain.keepsScope (hd h).usable
  exact .withConnection hd (hchain.books (hd h)) (handedOut_or_inactive (.inl hkept.isActive))

/-- The end of a transaction is entered for its deployment. -/
theorem Books.ended {h : Handle} {c : Connection} (hd : d.HoldsCalls held)
    (hbooks : Connection.Books ledger (d.connection h) (held h.slot) c [])
    (hended : (d.connection h).Ended c) :
    Books ledger d held (d.withConnection h c) (Function.update held h.slot []) :=
  .withConnection hd hbooks
    (handedOut_or_inactive (hended.slot.imp_left fun hsame => congrArg Slot.isActive hsame))

theorem Books.onConnection {ι : Type} {h : Handle} {x : Action Connection Unit}
    (hbooks : Books ledger d held (d.withConnection h (x (d.connection h)).2) held') :
    Books ledger d held
      ((Deployment.onConnection h x >>= fun _ => pure (Answer.done (ι := ι))) d).2 held' := by
  rw [Action.snd_bind_pure]
  exact hbooks

/-- A new handle has no transaction. -/
theorem Books.openHandle (hd : d.HoldsCalls held) (kind : Kind) :
    Books [] d held (Deployment.openHandle kind d).2 held where
  accounts := by
    have hnone : held d.slots.length = [] := by
      have hheld := hd ⟨d.handleSettings kind, d.slots.length⟩
      rw [slotOf_of_le (Nat.le_refl _)] at hheld
      exact hheld
    refine .none rfl (.refl d.metrics) ?_ ?_
    · show (d.slots ++ [Slot.idle]).countP Slot.isActive = d.slots.countP Slot.isActive
      rw [List.countP_append]
      rfl
    · show ∑ i ∈ range (d.slots ++ [Slot.idle]).length, DataCall.entities (held i) =
        ∑ i ∈ range d.slots.length, DataCall.entities (held i) + 0
      rw [List.length_append, List.length_singleton, Finset.sum_range_succ, hnone]
      rfl
  holds h := by
    rw [slotOf_openHandle]
    exact hd h

/-- What is entered of something that happens has been done by it. -/
theorem Happening.books (hd : d.HoldsCalls held) {x : Happening} (hhandle : x.OnHandle d)
    (hx : x.Enters d held ledger held') : Books ledger d held (x.apply d) held' := by
  cases x with
  | move m =>
    cases m with
    | @step ι _ s =>
      cases s with
      | operate h caller op =>
        obtain ⟨left, hchain, rfl⟩ := hx
        have hbooks := Books.chain hd hchain
        exact ⟨hbooks.accounts, hbooks.holds⟩
      | begin h =>
        obtain ⟨rfl, rfl⟩ := hx
        have hbooks := Books.withConnection hd (Connection.beginScope_books (hd h)) (.inl hhandle)
        rw [Function.update_eq_self] at hbooks
        exact .onConnection hbooks
      | commit h =>
        obtain ⟨rfl, rfl⟩ := hx
        exact .onConnection
          (.ended hd (Connection.commitScope_books (hd h)) (Connection.commitScope_cases _).1)
      | rollback h =>
        obtain ⟨rfl, rfl⟩ := hx
        exact .onConnection
          (.ended hd (Connection.rollbackScope_books (hd h)) (Connection.rollbackScope_cases _).1)
      | drop h =>
        obtain ⟨rfl, rfl⟩ := hx
        exact .ended hd (Connection.dropScope_books (hd h)) (Connection.dropScope_cases _).1
      | openHandle kind =>
        obtain ⟨rfl, rfl⟩ := hx
        exact .openHandle hd kind
      | failNext | close =>
        obtain ⟨rfl, rfl⟩ := hx
        exact ⟨.refl _, hd⟩
    | pull h count stream huses =>
      obtain ⟨c, left, hchain, hpull, rfl⟩ := hx
      have hbooks := Books.chain hd hchain
      rw [← hpull] at hbooks
      exact hbooks
  | inquire q =>
    obtain ⟨rfl, rfl⟩ := hx
    obtain ⟨s, hsurveyed, hd'⟩ := q.perform_eq d
    rw [Happening.apply, hd']
    exact ⟨.none hsurveyed.documents (.refl d.metrics) rfl rfl, hd⟩
  | others store =>
    obtain ⟨rfl, rfl⟩ := hx
    exact ⟨.ofOthers .., hd⟩

/-- Of everything that can happen something is entered. -/
theorem Happening.exists_enters (d : Deployment) (held : Nat → List DataCall) (x : Happening) :
    ∃ ledger held', x.Enters d held ledger held' := by
  cases x with
  | move m =>
    cases m with
    | @step ι _ s =>
      cases s with
      | operate h caller op =>
        have hchain : Connection.Chain h.settings.policy (fun _ => True) (d.connection h) _ :=
          op.perform_chain h.settings caller (d.context h) fun _ _ _ _ => trivial
        obtain ⟨log, hlogged⟩ := hchain.exists_logged
        obtain ⟨ledger, left, hbooked⟩ := hlogged.exists_booked (held h.slot)
        exact ⟨ledger, _, left, hbooked, rfl⟩
      | openHandle | begin | commit | rollback | drop | failNext | close => exact ⟨_, _, rfl, rfl⟩
    | pull h count stream huses =>
      obtain ⟨c, hchain, hpull⟩ := d.pull_eq h count huses
      obtain ⟨log, hlogged⟩ := hchain.exists_logged
      obtain ⟨ledger, left, hbooked⟩ := hlogged.exists_booked (held h.slot)
      exact ⟨ledger, _, c, left, hbooked, hpull, rfl⟩
  | inquire | others => exact ⟨_, _, rfl, rfl⟩

theorem exists_entersAll (d : Deployment) (held : Nat → List DataCall) (happenings : List Happening) :
    ∃ ledger held', d.EntersAll held happenings ledger held' := by
  induction happenings generalizing d held with
  | nil => exact ⟨[], held, rfl, rfl⟩
  | cons x rest ih =>
    obtain ⟨first, between, hfirst⟩ := x.exists_enters d held
    obtain ⟨more, held', hmore⟩ := ih (x.apply d) between
    exact ⟨_, held', first, more, between, rfl, hfirst, hmore⟩

/-- What is entered of a run has been done by it. -/
theorem EntersAll.books (hd : d.HoldsCalls held) {happenings : List Happening}
    (hhandles : d.OnHandles happenings) (h : d.EntersAll held happenings ledger held') :
    Books ledger d held (d.after happenings) held' := by
  induction happenings generalizing d held ledger with
  | nil =>
    obtain ⟨rfl, rfl⟩ := h
    exact ⟨.refl _, hd⟩
  | cons x rest ih =>
    obtain ⟨first, more, between, rfl, hfirst, hmore⟩ := h
    have hx := x.books hd hhandles.1 hfirst
    have hrest := ih hx.holds hhandles.2 hmore
    exact ⟨hx.accounts.append hrest.accounts, hrest.holds⟩

end Happenings

/-! ## Runs -/

section Runs

variable {store : Store} {settings : StorageSettings} {mapping : ColumnMapping} {initial : Deployment}

/-- What is entered from the start on. -/
theorem EntersAll.books_of_start (hstart : start store settings mapping = .ok initial)
    {happenings : List Happening} (hhandles : initial.OnHandles happenings)
    {ledger : List LedgerEntry} {held : Nat → List DataCall}
    (h : initial.EntersAll (fun _ => []) happenings ledger held) :
    Accounts ledger ⟨store.documents, .zero, 0, 0⟩ ((initial.after happenings).standing held) ∧
      (initial.after happenings).HoldsCalls held := by
  obtain ⟨resolver, -, hinitial⟩ := Outcome.bind_eq_ok hstart
  have hslots : initial.slots = [] := by
    cases hinitial
    rfl
  have hnone : initial.HoldsCalls fun _ => [] := by
    intro h
    rw [slotOf_of_le (hslots ▸ Nat.zero_le _)]
    rfl
  obtain ⟨haccounts, hholds⟩ := h.books hnone hhandles
  cases hinitial
  exact ⟨haccounts, hholds⟩

/-- In every run, whatever fails in it, as many transactions are counted as committed as had their writes
applied to the store, and as rolled back as ended otherwise; these and the open ones are the transactions
that the store has begun.  The ledger of the run says which these are: the documents are those of the
store with the writes of direct calls and of committed transactions applied, and no others. -/
theorem transactions_counted (hstart : start store settings mapping = .ok initial)
    (happenings : List Happening) (hhandles : initial.OnHandles happenings) :
    (∃ ledger held, initial.EntersAll (fun _ => []) happenings ledger held) ∧
    ∀ ledger held, initial.EntersAll (fun _ => []) happenings ledger held →
      (initial.after happenings).store.documents = ledger.foldl LedgerEntry.apply store.documents ∧
      (initial.after happenings).metrics.committed = ledger.countP (·.isCommitted) ∧
      (initial.after happenings).metrics.rolledBack = ledger.countP (·.isLost) ∧
      (initial.after happenings).metrics.committed + (initial.after happenings).metrics.rolledBack +
        (initial.after happenings).slots.countP (·.isActive) = ledger.countP (·.isBegun) := by
  refine ⟨exists_entersAll initial _ happenings, fun ledger held h => ?_⟩
  obtain ⟨⟨hdocuments, hcommitted, hrolledBack, hbegun, -⟩, -⟩ := h.books_of_start hstart hhandles
  have hcommitted : (initial.after happenings).metrics.committed = _ :=
    hcommitted.trans (Nat.zero_add _)
  have hrolledBack : (initial.after happenings).metrics.rolledBack = _ :=
    hrolledBack.trans (Nat.zero_add _)
  refine ⟨hdocuments, hcommitted, hrolledBack, ?_⟩
  rw [hcommitted, hrolledBack]
  exact hbegun.symm.trans (Nat.zero_add _)

/-- Operations with transactions of their own, and scopes, that end in every way. -/
def everyEnding : List Happening :=
  let alone : Handle :=
    { firstHandle with settings := { firstHandle.settings with policy := ⟨.standard, true⟩ } }
  let write (h : Handle) (id : String) : Step String :=
    .operate h default (.write ⟨id, [], .ofList []⟩)
  let steps : List (Step String) :=
    [.openHandle ⟨"order"⟩, write alone "a", .failNext (.call .put) "full", write alone "b",
      .failNext .start "busy", write alone "c", .failNext .commit "full", .failNext .rollback "lost",
      .begin firstHandle, write firstHandle "d", .commit firstHandle, .begin firstHandle,
      write firstHandle "e", .commit firstHandle, .begin firstHandle, .drop firstHandle,
      .begin firstHandle]
  steps.map fun step => .move (.step step)

/-- Six transactions are begun: two are committed, three are lost, and one is open. -/
theorem transactions_counted_everyEnding :
    freshDeployment.OnHandles everyEnding ∧
    ∃ ledger held, freshDeployment.EntersAll (fun _ => []) everyEnding ledger held ∧
      ledger.countP (·.isBegun) = 6 ∧ ledger.countP (·.isCommitted) = 2 ∧
      ledger.countP (·.isLost) = 3 := by
  have hfresh : start (.empty .standard 10) .standard .builtin = .ok freshDeployment := rfl
  have hhandles : freshDeployment.OnHandles everyEnding := by decide +kernel
  obtain ⟨⟨ledger, held, hentered⟩, hexact⟩ := transactions_counted hfresh everyEnding hhandles
  obtain ⟨-, hcommitted, hlost, hbegun⟩ := hexact ledger held hentered
  exact ⟨hhandles, ledger, held, hentered, hbegun.symm.trans (by decide +kernel),
    hcommitted.symm.trans (by decide +kernel), hlost.symm.trans (by decide +kernel)⟩

/-- In every run the entities that are counted as written are those that were put by calls that took
effect, those put by calls that were lost with their transactions, and those put in open transactions.
So when no transaction is open, as many are counted as were written exactly if none were lost. -/
theorem written_counted (hstart : start store settings mapping = .ok initial)
    (happenings : List Happening) (hhandles : initial.OnHandles happenings) :
    (∃ ledger held, initial.EntersAll (fun _ => []) happenings ledger held) ∧
    ∀ ledger held, initial.EntersAll (fun _ => []) happenings ledger held →
      (initial.after happenings).store.documents = ledger.foldl LedgerEntry.apply store.documents ∧
      (initial.after happenings).metrics.written =
        (ledger.map (·.applied)).sum + (ledger.map (·.forgone)).sum +
          ∑ i ∈ range (initial.after happenings).slots.length, DataCall.entities (held i) ∧
      ((∀ slot ∈ (initial.after happenings).slots, slot.isActive = false) →
        (initial.after happenings).metrics.written =
          (ledger.map (·.applied)).sum + (ledger.map (·.forgone)).sum ∧
        ((initial.after happenings).metrics.written = (ledger.map (·.applied)).sum ↔
          ∀ entry ∈ ledger, entry.forgone = 0)) := by
  refine ⟨exists_entersAll initial _ happenings, fun ledger held h => ?_⟩
  obtain ⟨⟨hdocuments, -, -, -, hwritten⟩, hholds⟩ := h.books_of_start hstart hhandles
  have hwritten : (initial.after happenings).metrics.written =
      (ledger.map (·.applied)).sum + (ledger.map (·.forgone)).sum +
        ∑ i ∈ range (initial.after happenings).slots.length, DataCall.entities (held i) := by
    refine hwritten.trans (congrArg (· + _ + _) (Nat.zero_add _))
  refine ⟨hdocuments, hwritten, fun hnone => ?_⟩
  have hclosed : ∑ i ∈ range (initial.after happenings).slots.length, DataCall.entities (held i) = 0 := by
    refine Finset.sum_eq_zero fun i _ => ?_
    have hheld : held i = [] :=
      (hholds ⟨initial.handleSettings default, i⟩).eq_nil (isActive_slotOf hnone _)
    rw [hheld, DataCall.entities_nil]
  rw [hclosed, Nat.add_zero] at hwritten
  refine ⟨hwritten, ?_⟩
  have hforgone : (ledger.map (·.forgone)).sum = 0 ↔ ∀ entry ∈ ledger, entry.forgone = 0 := by
    rw [List.sum_eq_zero_iff_forall_eq_nat, List.forall_mem_map]
  rw [← hforgone]
  omega

/-- A record that is written in a scope which is rolled back. -/
def rolledBackWrite : List Happening :=
  let steps : List (Step String) :=
    [.openHandle ⟨"order"⟩, .begin firstHandle,
      .operate firstHandle default (.write ⟨"a", [], .ofList []⟩), .rollback firstHandle]
  steps.map fun step => .move (.step step)

/-- After it another record is written in a scope that is committed. -/
def rolledBackThenCommitted : List Happening :=
  let steps : List (Step String) :=
    [.begin firstHandle, .operate firstHandle default (.write ⟨"b", [], .ofList []⟩),
      .commit firstHandle]
  rolledBackWrite ++ steps.map fun step => .move (.step step)

/-- Both entities are counted as written. -/
theorem written_counted_rolledBackThenCommitted :
    freshDeployment.OnHandles rolledBackThenCommitted ∧
    (freshDeployment.after rolledBackThenCommitted).store.size = 1 ∧
    ∃ ledger held, freshDeployment.EntersAll (fun _ => []) rolledBackThenCommitted ledger held ∧
      (ledger.map (·.applied)).sum + (ledger.map (·.forgone)).sum = 2 := by
  have hfresh : start (.empty .standard 10) .standard .builtin = .ok freshDeployment := rfl
  have hhandles : freshDeployment.OnHandles rolledBackThenCommitted := by decide +kernel
  have hnone : ∀ slot ∈ (freshDeployment.after rolledBackThenCommitted).slots,
      slot.isActive = false := by
    decide +kernel
  obtain ⟨⟨ledger, held, hentered⟩, hexact⟩ :=
    written_counted hfresh rolledBackThenCommitted hhandles
  obtain ⟨-, -, hclosed⟩ := hexact ledger held hentered
  exact ⟨hhandles, by decide +kernel, ledger, held, hentered,
    (hclosed hnone).1.symm.trans (by decide +kernel)⟩

/-- The entity of a write that was rolled back is counted as written, although no call has taken effect
and the store never held anything. -/
theorem written_after_rollback :
    start (.empty .standard 10) .standard .builtin = .ok freshDeployment ∧
    freshDeployment.OnHandles rolledBackWrite ∧
    (∀ past, past <+: rolledBackWrite → (freshDeployment.after past).store.documents = ∅) ∧
    (∀ slot ∈ (freshDeployment.after rolledBackWrite).slots, slot.isActive = false) ∧
    (freshDeployment.after rolledBackWrite).metrics.written = 1 ∧
    (∃ ledger held, freshDeployment.EntersAll (fun _ => []) rolledBackWrite ledger held) ∧
    ∀ ledger held, freshDeployment.EntersAll (fun _ => []) rolledBackWrite ledger held →
      (ledger.map (·.applied)).sum = 0 := by
  have hnever : ∀ past ∈ rolledBackWrite.inits, (freshDeployment.after past).store.documents = ∅ := by
    decide +kernel
  refine ⟨rfl, by decide +kernel, fun past hpast => hnever past ((List.mem_inits ..).mpr hpast),
    by decide +kernel, by decide +kernel, exists_entersAll .., ?_⟩
  rintro ledger held ⟨_, _, _, rfl, ⟨rfl, rfl⟩, _, _, _, rfl, ⟨rfl, rfl⟩, _, _, _, rfl,
    ⟨left, hchain, rfl⟩, _, _, _, rfl, ⟨rfl, rfl⟩, rfl, rfl⟩
  obtain rfl := hchain.ledger_eq_nil (fun t ht => (by cases ht; rfl)) rfl
  simp only [List.map_append, List.sum_append, Connection.applied_enterBegin,
    Connection.applied_enterEnd, List.map_nil, List.sum_nil, Nat.add_zero]

end Runs

end Deployment

end DocumentStore
