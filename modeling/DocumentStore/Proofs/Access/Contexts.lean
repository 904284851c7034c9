import DocumentStore.Access.Context
import DocumentStore.Proofs.Access.Reports
set_option autoImplicit false

/-!
# Operations of handles that leave all of their writes or none

Around its calls an operation finds out its keys and its entities, which may fail before the first
call, and reads off its answer.  Neither touches the connection, so that what the calls leave is what
the operation leaves.
-/

namespace DocumentStore

variable {α β : Type}

namespace Connection

theorem AllOrNothing.unused (operation : OperationKind) (c : Connection) (r : Outcome α) :
    AllOrNothing operation [] c r c :=
  ⟨rfl, rfl, fun _ _ => ⟨.refl _, .refl c⟩, fun _ _ => ⟨.refl _, .inl (.refl c)⟩⟩

/-- What is read off an answer may fail, but nothing was written then. -/
theorem AllOrNothing.bind {operation : OperationKind} {c c' : Connection} {r : Outcome α}
    (h : AllOrNothing operation [] c r c') (f : α → Outcome β) :
    AllOrNothing operation [] c (r >>= f) c' := by
  cases r with
  | error e =>
    exact ⟨h.closed, h.slot, fun _ hok => (by cases hok), fun e' he => h.undone e' (by cases he; rfl)⟩
  | ok a =>
    obtain ⟨hdata, hquiet⟩ := h.done a rfl
    exact ⟨h.closed, h.slot, fun _ _ => ⟨hdata, hquiet⟩, fun _ _ => ⟨hdata, .inl hquiet⟩⟩

/-- What an operation with planned writes leaves.  It fails if its plan does, and writes nothing
then. -/
def Leaves (operation : OperationKind) (planned : Outcome (List Write)) (c : Connection)
    (r : Outcome α) (c' : Connection) : Prop :=
  match planned with
  | .ok ws => AllOrNothing operation ws c r c'
  | .error e => r = .error e ∧ AllOrNothing operation [] c r c'

theorem Leaves.map {operation : OperationKind} {planned : Outcome (List Write)} {c c' : Connection}
    {r : Outcome α} (h : Leaves operation planned c r c') (f : α → β) :
    Leaves operation planned c (r.map f) c' := by
  cases planned with
  | ok ws => exact AllOrNothing.map h f
  | error e =>
    obtain ⟨rfl, hnothing⟩ := h
    exact ⟨rfl, hnothing.map f⟩

end Connection

/-- The keys of a kind in the caller's namespace, if there is one. -/
def HandleSettings.keysOf (settings : HandleSettings) (caller : Caller) (kind : Kind) :
    Outcome KeyFactory := do
  let space ← settings.resolver.current caller.tenant
  return ⟨space, kind⟩

theorem HandleSettings.keysOf_of_current {settings : HandleSettings} {caller : Caller} {kind : Kind}
    {space : Namespace} (h : settings.resolver.current caller.tenant = .ok space) :
    settings.keysOf caller kind = .ok ⟨space, kind⟩ := by
  rw [keysOf, h]
  rfl

namespace Context

/-! ## Beside the calls -/

/-- An action with a known answer that leaves the connection alone. -/
def Quiet (x : Action Context α) (answer : Outcome α) : Prop :=
  ∀ s, (x s).1 = answer ∧ (x s).2.connection = s.connection

namespace Quiet

theorem exists_eq {x : Action Context α} {answer : Outcome α} (h : Quiet x answer) (s : Context) :
    ∃ s', x s = (answer, s') ∧ s'.connection = s.connection :=
  ⟨(x s).2, Prod.ext (h s).1 rfl, (h s).2⟩

theorem ofOutcome (answer : Outcome α) : Quiet (Action.ofOutcome answer) answer :=
  fun _ => ⟨rfl, rfl⟩

theorem pure (a : α) : Quiet (Pure.pure a) (.ok a) := fun _ => ⟨rfl, rfl⟩

theorem keepNamespace (space : Namespace) : Quiet (keepNamespace space) (.ok ()) :=
  fun _ => ⟨rfl, rfl⟩

theorem currentKeys (settings : HandleSettings) (caller : Caller) (kind : Kind) :
    Quiet (currentKeys settings caller kind) (settings.keysOf caller kind) := by
  intro s
  rw [Context.currentKeys, HandleSettings.keysOf, Action.bind_apply, Action.ofOutcome]
  cases settings.resolver.current caller.tenant with
  | error e => exact ⟨rfl, rfl⟩
  | ok space => exact ⟨rfl, rfl⟩

/-- What a quiet action after another one changes is the answer. -/
theorem following {x : Action Context α} {f : α → Action Context β} {g : α → Outcome β}
    (hf : ∀ a, Quiet (f a) (g a)) (s : Context) :
    ((x >>= f) s).1 = (x s).1 >>= g ∧ ((x >>= f) s).2.connection = (x s).2.connection := by
  rw [Action.bind_apply]
  rcases x s with ⟨e | a, s'⟩
  · exact ⟨rfl, rfl⟩
  · exact hf a s'

end Quiet

/-! ## All or nothing -/

/-- An operation that leaves all of its planned writes or none on every connection without an
explicit transaction. -/
def Atomically (operation : OperationKind) (x : Action Context α)
    (planned : Outcome (List Write)) : Prop :=
  ∀ s, s.connection.slot.isActive = false →
    Connection.Leaves operation planned s.connection (x s).1 (x s).2.connection

namespace Atomically

variable {operation : OperationKind} {x : Action Context α} {f : α → Action Context β}
  {planned : Outcome (List Write)}

theorem onConnection {x : Action Connection α} {ws : List Write}
    (h : Connection.Atomically operation x ws) :
    Atomically operation (onConnection x) (.ok ws) :=
  fun s hidle => h s.connection hidle

theorem pure (operation : OperationKind) (a : α) :
    Atomically operation (Pure.pure a) (.ok []) :=
  fun s hidle => Connection.Atomically.pure operation a s.connection hidle

/-- What is found out before the calls plans them, or fails before the first. -/
theorem prepare {answer : Outcome α} {plan : α → Outcome (List Write)} (hx : Quiet x answer)
    (hf : ∀ a, Atomically operation (f a) (plan a)) :
    Atomically operation (x >>= f) (answer >>= plan) := by
  intro s hidle
  obtain ⟨hanswer, hsame⟩ := hx s
  rw [Action.bind_apply]
  rcases hr : x s with ⟨r, s'⟩
  rw [hr] at hanswer hsame
  obtain rfl : r = answer := hanswer
  cases r with
  | error e =>
    refine ⟨rfl, ?_⟩
    dsimp only at hsame ⊢
    rw [hsame]
    exact .unused operation s.connection _
  | ok a =>
    have hleaves := hf a s' (by rw [hsame]; exact hidle)
    dsimp only at hsame
    rw [hsame] at hleaves
    exact hleaves

/-- What follows the calls does not fail. -/
theorem andThen {g : α → β} (h : Atomically operation x planned)
    (hf : ∀ a, Quiet (f a) (.ok (g a))) : Atomically operation (x >>= f) planned := by
  intro s hidle
  have hmapped := (h s hidle).map g
  obtain ⟨hanswer, hsame⟩ := Quiet.following (x := x) hf s
  have hmap : ((x s).1 >>= fun a => .ok (g a)) = (x s).1.map g := by
    cases (x s).1 <;> rfl
  rw [hanswer, hsame, hmap]
  exact hmapped

end Atomically

end Context

end DocumentStore
