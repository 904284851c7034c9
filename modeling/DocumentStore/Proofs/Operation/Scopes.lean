import DocumentStore.Proofs.Access.Scopes
import DocumentStore.Proofs.Operation.Runs
import Mathlib.Data.List.Nodup
set_option autoImplicit false

/-!
# Scopes

A caller that opens the transaction of a handle holds a scope until it commits, rolls back or drops
it.  Between the steps of any run a handle has an open transaction exactly if a scope of it is held,
and the store counts as many transactions as scopes are held, whatever has failed on the way.
-/

namespace DocumentStore.Deployment

/-! ## Who holds scopes -/

/-- Whether callers that hold scopes of the handles with these slots can take a step: only a handle
that was handed out can open a transaction, and only a scope that is held can be ended. -/
def Step.Possible {ι : Type} (d : Deployment) (scopes : List Nat) : Step ι → Prop
  | .begin h => h.slot < d.slots.length
  | .commit h | .rollback h | .drop h => h.slot ∈ scopes
  | .close => False
  | _ => True

instance {ι : Type} (d : Deployment) (scopes : List Nat) (step : Step ι) :
    Decidable (step.Possible d scopes) :=
  match step with
  | .begin h => inferInstanceAs (Decidable (h.slot < d.slots.length))
  | .commit h | .rollback h | .drop h => inferInstanceAs (Decidable (h.slot ∈ scopes))
  | .close => inferInstanceAs (Decidable False)
  | .openHandle _ | .operate _ _ _ | .failNext _ _ => inferInstanceAs (Decidable True)

/-- The slots of the handles with scopes that are held after a step. -/
def Step.scopesAfter {ι : Type} (scopes : List Nat) (answer : Outcome (Answer ι)) : Step ι → List Nat
  | .begin h => if answer.isOk then h.slot :: scopes else scopes
  | .commit h | .rollback h | .drop h => scopes.erase h.slot
  | _ => scopes

/-- What runs lead to from a deployment: a deployment, and the slots of the handles with scopes that
are held.  A stream may be read in any portions between the steps. -/
inductive Reaches (start : Deployment) : Deployment → List Nat → Prop where
  | start : Reaches start start []
  | step {ι : Type} [RecordId ι] {d : Deployment} {scopes : List Nat} (step : Step ι)
      (h : Reaches start d scopes) (hstep : step.Possible d scopes) :
      Reaches start (step.perform d).2 (step.scopesAfter scopes (step.perform d).1)
  | pull {α : Type} {d : Deployment} {scopes : List Nat} {policy : Policy} (handle : Handle)
      (count : Option Nat) {stream : ItemStream α} (h : Reaches start d scopes)
      (huses : stream.source.Uses policy) :
      Reaches start (d.pull handle count stream).2.2 scopes

/-! ## Transactions and scopes -/

/-- Whether open transactions and held scopes belong together. -/
structure Balanced (d : Deployment) (scopes : List Nat) : Prop where
  isOpen : d.closed = false
  nodup : scopes.Nodup
  live : ∀ h, h.slot ∈ scopes ↔ (d.slotOf h).isActive = true
  usable : ∀ h, (d.slotOf h).Usable
  active : d.store.active = scopes.length

theorem slotOf_withConnection (d : Deployment) (h h' : Handle) (c : Connection) :
    (d.withConnection h c).slotOf h' =
      if h'.slot = h.slot ∧ h.slot < d.slots.length then c.slot else d.slotOf h' := by
  unfold slotOf withConnection
  simp only [List.getD_eq_getElem?_getD, List.getElem?_set]
  by_cases hsame : h'.slot = h.slot
  · by_cases hlt : h.slot < d.slots.length
    · rw [if_pos hsame.symm, if_pos hlt, if_pos ⟨hsame, hlt⟩, Option.getD_some]
    · rw [if_pos hsame.symm, if_neg hlt, if_neg (fun hboth => hlt hboth.2), hsame,
        List.getElem?_eq_none (Nat.le_of_not_lt hlt)]
  · rw [if_neg (Ne.symm hsame), if_neg (fun hboth => hsame hboth.1)]

theorem slotOf_of_le {d : Deployment} {h : Handle} (hle : d.slots.length ≤ h.slot) :
    d.slotOf h = .idle := by
  rw [slotOf, List.getD_eq_getElem?_getD, List.getElem?_eq_none hle, Option.getD_none]

theorem slotOf_of_lt {d : Deployment} {h : Handle} (hlt : h.slot < d.slots.length) :
    d.slotOf h = d.slots[h.slot] := by
  rw [slotOf, List.getD_eq_getElem?_getD, List.getElem?_eq_getElem hlt, Option.getD_some]

theorem slotOf_openHandle (d : Deployment) (kind : Kind) (h : Handle) :
    (openHandle kind d).2.slotOf h = d.slotOf h := by
  simp only [slotOf, openHandle, List.getD_eq_getElem?_getD, List.getElem?_append]
  split
  · rfl
  · next hge =>
    rw [List.getElem?_eq_none (Nat.le_of_not_lt hge)]
    cases h.slot - d.slots.length <;> rfl

theorem withConnection_connection (d : Deployment) (h : Handle) :
    d.withConnection h (d.connection h) = d := by
  have hslots : d.slots.set h.slot (d.slotOf h) = d.slots := by
    rcases Nat.lt_or_ge h.slot d.slots.length with hlt | hge
    · rw [slotOf_of_lt hlt, List.set_getElem_self]
    · exact List.set_eq_of_length_le hge
  unfold withConnection
  dsimp only [connection]
  rw [hslots]

namespace Balanced

variable {d : Deployment} {scopes : List Nat} {h : Handle} {c : Connection}

theorem handedOut (hd : d.Balanced scopes) (hlive : h.slot ∈ scopes) : h.slot < d.slots.length := by
  have hactive := (hd.live h).mp hlive
  refine Nat.lt_of_not_le fun hge => ?_
  rw [slotOf_of_le hge] at hactive
  cases hactive

theorem exists_active (hd : d.Balanced scopes) (hlive : h.slot ∈ scopes) :
    ∃ t, d.slotOf h = .active t ∧ t.finished = false := by
  have hactive := (hd.live h).mp hlive
  cases hslot : d.slotOf h with
  | active t => exact ⟨t, rfl, hd.usable h t hslot⟩
  | idle | committed | rolledBack =>
    rw [hslot] at hactive
    cases hactive

theorem isActive_eq_false (hd : d.Balanced scopes) (hdead : h.slot ∉ scopes) :
    (d.slotOf h).isActive = false := by
  rw [← Bool.not_eq_true, ← hd.live h]
  exact hdead

theorem count_eq_one (hd : d.Balanced scopes) :
    (∃ t, d.slotOf h = .active t ∧ t.finished = false) ↔ scopes.count h.slot = 1 := by
  constructor
  · rintro ⟨t, ht, -⟩
    exact List.count_eq_one_of_mem hd.nodup ((hd.live h).mpr (congrArg Slot.isActive ht))
  · intro hcount
    exact hd.exists_active (List.count_pos_iff.mp (by omega))

theorem count_eq_zero (hd : d.Balanced scopes) :
    (d.slotOf h).isActive = false ↔ scopes.count h.slot = 0 := by
  rw [List.count_eq_zero, hd.live h, Bool.not_eq_true]

/-! ## Changes of one connection -/

theorem keep (hd : d.Balanced scopes) (hc : (d.connection h).KeepsScope c) :
    (d.withConnection h c).Balanced scopes where
  isOpen := hc.closed.trans hd.isOpen
  nodup := hd.nodup
  live h' := by
    rw [hd.live h', slotOf_withConnection]
    split
    · next hsame =>
      rw [hc.isActive, connection, slotOf, slotOf, hsame.1]
    · rfl
  usable h' := by
    rw [slotOf_withConnection]
    split
    · exact hc.usable
    · exact hd.usable h'
  active := hc.active.trans hd.active

theorem opened (hd : d.Balanced scopes) (hslot : h.slot < d.slots.length) (hdead : h.slot ∉ scopes)
    (hopen : c.closed = false) (hactive : c.slot.isActive = true) (husable : c.slot.Usable)
    (hcount : c.store.active = d.store.active + 1) :
    (d.withConnection h c).Balanced (h.slot :: scopes) where
  isOpen := hopen
  nodup := List.nodup_cons.mpr ⟨hdead, hd.nodup⟩
  live h' := by
    rw [slotOf_withConnection, List.mem_cons]
    by_cases hsame : h'.slot = h.slot
    · simp [hsame, hslot, hactive]
    · rw [or_iff_right hsame, if_neg (fun hboth => hsame hboth.1), hd.live h']
  usable h' := by
    rw [slotOf_withConnection]
    split
    · exact husable
    · exact hd.usable h'
  active := by
    rw [List.length_cons, ← hd.active]
    exact hcount

theorem ended (hd : d.Balanced scopes) (hlive : h.slot ∈ scopes)
    (hc : (d.connection h).EndsScope c) :
    (d.withConnection h c).Balanced (scopes.erase h.slot) where
  isOpen := hc.closed.trans hd.isOpen
  nodup := hd.nodup.erase h.slot
  live h' := by
    rw [slotOf_withConnection, hd.nodup.mem_erase_iff]
    by_cases hsame : h'.slot = h.slot
    · simp [hsame, hd.handedOut hlive, hc.isActive]
    · rw [and_iff_right hsame, if_neg (fun hboth => hsame hboth.1), hd.live h']
  usable h' := by
    rw [slotOf_withConnection]
    split
    · exact .of_isActive_eq_false hc.isActive
    · exact hd.usable h'
  active := by
    rw [List.length_erase_of_mem hlive, ← hd.active]
    exact hc.active

/-! ## Opening and ending -/

theorem begin_live (hd : d.Balanced scopes) (hlive : h.slot ∈ scopes) :
    onConnection h Connection.beginScope d = (.error .transactionAlreadyActive, d) := by
  obtain ⟨t, ht, -⟩ := hd.exists_active hlive
  have hbegin := Connection.beginScope_active (c := d.connection h) hd.isOpen ht
  simp only [onConnection, Action.onPart, hbegin, withConnection_connection]

/-- Without a scope one is opened, unless the store fails to begin a transaction. -/
theorem begin_dead (hd : d.Balanced scopes) (hslot : h.slot < d.slots.length)
    (hdead : h.slot ∉ scopes) :
    (∃ d', onConnection h Connection.beginScope d = (.ok (), d') ∧
        d'.Balanced (h.slot :: scopes)) ∨
      ∃ point message d', onConnection h Connection.beginScope d =
          (.error (.backend point message), d') ∧ d'.Balanced scopes := by
  rcases Connection.beginScope_inactive (c := d.connection h) hd.isOpen
      (hd.isActive_eq_false hdead) with
    ⟨c, hbegin, hopen, hactive, husable, hcount⟩ | ⟨point, message, c, hbegin, hkeeps⟩
  · refine .inl ⟨d.withConnection h c, ?_, hd.opened hslot hdead hopen hactive husable hcount⟩
    simp only [onConnection, Action.onPart, hbegin]
  · refine .inr ⟨point, message, d.withConnection h c, ?_, hd.keep hkeeps⟩
    simp only [onConnection, Action.onPart, hbegin]

theorem begin_dead_ne (hd : d.Balanced scopes) (hdead : h.slot ∉ scopes) :
    (onConnection h Connection.beginScope d).1 ≠ .error .transactionAlreadyActive := by
  rcases Connection.beginScope_inactive (c := d.connection h) hd.isOpen
      (hd.isActive_eq_false hdead) with ⟨c, hbegin, -⟩ | ⟨point, message, c, hbegin, -⟩
  · simp only [onConnection, Action.onPart, hbegin]
    exact fun heq => by cases heq
  · simp only [onConnection, Action.onPart, hbegin]
    exact fun heq => by cases heq

theorem commit_live (hd : d.Balanced scopes) (hlive : h.slot ∈ scopes) :
    (onConnection h Connection.commitScope d).2.Balanced (scopes.erase h.slot) ∧
      (onConnection h Connection.commitScope d).1 ≠ .error .noActiveTransaction := by
  obtain ⟨t, ht, hfinished⟩ := hd.exists_active hlive
  obtain ⟨hends, hanswer⟩ := Connection.commitScope_ends (c := d.connection h) ht hfinished
  exact ⟨hd.ended hlive hends, hanswer⟩

theorem rollback_live (hd : d.Balanced scopes) (hlive : h.slot ∈ scopes) :
    (onConnection h Connection.rollbackScope d).2.Balanced (scopes.erase h.slot) ∧
      (onConnection h Connection.rollbackScope d).1 ≠ .error .noActiveTransaction := by
  obtain ⟨t, ht, hfinished⟩ := hd.exists_active hlive
  obtain ⟨hends, hanswer⟩ := Connection.rollbackScope_ends (c := d.connection h) ht hfinished
  exact ⟨hd.ended hlive hends, hanswer⟩

/-! ## Steps -/

variable {ι : Type} [RecordId ι]

theorem step_begin (hd : d.Balanced scopes) (hslot : h.slot < d.slots.length) :
    ((Step.begin (ι := ι) h).perform d).2.Balanced
      ((Step.begin (ι := ι) h).scopesAfter scopes ((Step.begin h).perform d).1) := by
  by_cases hlive : h.slot ∈ scopes
  · rw [Step.perform, Action.bind_error (hd.begin_live hlive)]
    exact hd
  · rcases hd.begin_dead hslot hlive with ⟨d', hbegin, hd'⟩ | ⟨point, message, d', hbegin, hd'⟩
    · rw [Step.perform, Action.bind_ok hbegin]
      exact hd'
    · rw [Step.perform, Action.bind_error hbegin]
      exact hd'

/-- No step of a run brings transactions and scopes out of balance, whether it succeeds or fails. -/
theorem step (hd : d.Balanced scopes) (step : Step ι) (hstep : step.Possible d scopes) :
    (step.perform d).2.Balanced (step.scopesAfter scopes (step.perform d).1) := by
  cases step with
  | openHandle kind =>
    refine ⟨hd.isOpen, hd.nodup, fun h => ?_, fun h => ?_, hd.active⟩
    · have hlive := hd.live h
      rw [← slotOf_openHandle d kind h] at hlive
      exact hlive
    · have husable := hd.usable h
      rw [← slotOf_openHandle d kind h] at husable
      exact husable
  | operate h caller op =>
    have hchain : Connection.Chain h.settings.policy (fun _ => True) (d.connection h) _ :=
      op.perform_chain h.settings caller (d.context h) fun _ _ _ _ => trivial
    have hkept := hd.keep (hchain.keepsScope (hd.usable h))
    exact ⟨hkept.isOpen, hkept.nodup, hkept.live, hkept.usable, hkept.active⟩
  | begin h => exact hd.step_begin hstep
  | commit h =>
    rw [Step.perform, Action.snd_bind_pure]
    exact (hd.commit_live hstep).1
  | rollback h =>
    rw [Step.perform, Action.snd_bind_pure]
    exact (hd.rollback_live hstep).1
  | drop h =>
    obtain ⟨t, ht, hfinished⟩ := hd.exists_active hstep
    exact hd.ended hstep (Connection.dropScope_ends (c := d.connection h) ht hfinished)
  | failNext point message => exact ⟨hd.isOpen, hd.nodup, hd.live, hd.usable, hd.active⟩
  | close => exact absurd hstep id

omit [RecordId ι] in
theorem pull {α : Type} (hd : d.Balanced scopes) (h : Handle) (count : Option Nat)
    {stream : ItemStream α} {policy : Policy} (huses : stream.source.Uses policy) :
    (d.pull h count stream).2.2.Balanced scopes := by
  have hchain (count : Nat) : Connection.Chain policy (fun _ => True) (d.connection h) _ :=
    ItemStream.take_chain count huses (d.connection h)
  cases count with
  | some count => exact hd.keep ((hchain count).keepsScope (hd.usable h))
  | none =>
    exact hd.keep ((hchain (stream.source.bound d.store.size + 1)).keepsScope (hd.usable h))

theorem reaches {start : Deployment} (hstart : start.Balanced []) (h : Reaches start d scopes) :
    d.Balanced scopes := by
  induction h with
  | start => exact hstart
  | step step _ hstep ih => exact ih.step step hstep
  | pull handle count _ huses ih => exact ih.pull handle count huses

end Balanced

theorem balanced_start {store : Store} {settings : StorageSettings} {mapping : ColumnMapping}
    {d : Deployment} (h : start store settings mapping = .ok d) (hactive : store.active = 0) :
    d.Balanced [] := by
  obtain ⟨resolver, -, hd⟩ := Outcome.bind_eq_ok h
  cases hd
  refine ⟨rfl, List.nodup_nil, fun h => ?_, fun h => ?_, hactive⟩
  · exact iff_of_false List.not_mem_nil (by simp [slotOf, Slot.isActive])
  · exact .of_isActive_eq_false (by simp [slotOf, Slot.isActive])

/-! ## Runs -/

/-- After every step of every run a handle has an open transaction, and one that can be used, exactly
if one scope of it is held, and never more; the store counts the scopes that are held.  A transaction
cannot be opened twice, but can be after it has ended, unless the store refuses; a scope that is held
can be ended. -/
theorem scopes_balanced {store : Store} {settings : StorageSettings} {mapping : ColumnMapping}
    {initial d : Deployment} {scopes : List Nat}
    (hstart : start store settings mapping = .ok initial) (hactive : store.active = 0)
    (h : Reaches initial d scopes) :
    (∀ h, ((∃ t, d.slotOf h = .active t ∧ t.finished = false) ↔ scopes.count h.slot = 1) ∧
      ((d.slotOf h).isActive = false ↔ scopes.count h.slot = 0)) ∧
    d.store.active = scopes.length ∧
    (∀ h, h.slot ∈ scopes →
      onConnection h Connection.beginScope d = (.error .transactionAlreadyActive, d)) ∧
    (∀ h, h.slot ∉ scopes →
      (onConnection h Connection.beginScope d).1 ≠ .error .transactionAlreadyActive) ∧
    (∀ h, h.slot ∈ scopes →
      (onConnection h Connection.commitScope d).1 ≠ .error .noActiveTransaction ∧
      (onConnection h Connection.rollbackScope d).1 ≠ .error .noActiveTransaction) := by
  have hd := (balanced_start hstart hactive).reaches h
  exact ⟨fun h => ⟨hd.count_eq_one, hd.count_eq_zero⟩, hd.active, fun h => hd.begin_live,
    fun h => hd.begin_dead_ne, fun h hlive => ⟨(hd.commit_live hlive).2, (hd.rollback_live hlive).2⟩⟩

/-- A deployment without handles. -/
def freshDeployment : Deployment :=
  { settings := .standard, resolver := .single ⟨""⟩, mapping := .builtin, store := .empty .standard 10
    metrics := .zero, closed := false, index := .empty, keys := .empty, slots := [] }

/-- Its first handle. -/
def firstHandle : Handle := ⟨⟨⟨"order"⟩, ⟨.standard, false⟩, 10, .single ⟨""⟩, .builtin⟩, 0⟩

/-- A transaction that the store refuses to commit, and then to roll back. -/
def refusedCommit : List (Step String) :=
  [.openHandle ⟨"order"⟩, .failNext .commit "full", .failNext .rollback "lost", .begin firstHandle,
    .commit firstHandle]

theorem scopes_balanced_refusedCommit :
    Reaches freshDeployment (run refusedCommit freshDeployment) [] ∧
      (run refusedCommit freshDeployment).store.failures = [] ∧
      (run refusedCommit freshDeployment).store.active = 0 ∧
      (onConnection firstHandle Connection.beginScope (run refusedCommit freshDeployment)).1 ≠
        .error .transactionAlreadyActive := by
  have hfresh : start (.empty .standard 10) .standard .builtin = .ok freshDeployment := rfl
  have hnone : Reaches freshDeployment freshDeployment [] := .start
  have hopened := hnone.step (Step.openHandle (ι := String) ⟨"order"⟩) trivial
  have harmed := (hopened.step (Step.failNext (ι := String) .commit "full") trivial).step
    (Step.failNext (ι := String) .rollback "lost") trivial
  have hbegun := harmed.step (Step.begin (ι := String) firstHandle) (by decide)
  have hended := hbegun.step (Step.commit (ι := String) firstHandle) (by decide)
  have hreached : Reaches freshDeployment (run refusedCommit freshDeployment) [] := hended
  obtain ⟨-, hactive, -, hbegin, -⟩ := scopes_balanced hfresh rfl hreached
  exact ⟨hreached, rfl, hactive, hbegin firstHandle List.not_mem_nil⟩

end DocumentStore.Deployment
