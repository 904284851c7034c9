import DocumentStore.Fault
set_option autoImplicit false

/-!
# Operations on a state

An operation takes the state as it is and gives an answer, or the reason why there is none, together
with the state it leaves.  The state changes made before a failure stay.
-/

namespace DocumentStore

/-- An operation on a state. -/
def Action (σ α : Type) : Type := σ → Outcome α × σ

namespace Action

variable {σ τ α β : Type}

/-- The operation that only answers. -/
protected def pure (a : α) : Action σ α := fun s => (.ok a, s)

/-- One operation after another; the second is left out if the first fails. -/
protected def bind (x : Action σ α) (f : α → Action σ β) : Action σ β := fun s =>
  match x s with
  | (.ok a, s) => f a s
  | (.error e, s) => (.error e, s)

instance : Monad (Action σ) where
  pure := Action.pure
  bind := Action.bind

instance : Inhabited (Action σ α) := ⟨fun s => (.error default, s)⟩

/-- The operation that fails. -/
def fail (e : StorageError) : Action σ α := fun s => (.error e, s)

/-- An answer that was found without looking at the state. -/
def ofOutcome (r : Outcome α) : Action σ α := fun s => (r, s)

/-- The answer read off the state. -/
def gets (f : σ → α) : Action σ α := fun s => (.ok (f s), s)

/-- A change of the state. -/
def modify (f : σ → σ) : Action σ Unit := fun s => (.ok (), f s)

/-- An operation that does not fail but answers with the failure. -/
def attempt (x : Action σ α) : Action σ (Outcome α) := fun s =>
  match x s with
  | (r, s) => (.ok r, s)

/-- The same operation with its failure reported in another way. -/
def mapError (f : StorageError → StorageError) (x : Action σ α) : Action σ α := fun s =>
  match x s with
  | (.ok a, s) => (.ok a, s)
  | (.error e, s) => (.error (f e), s)

/-- An operation on a part of the state. -/
def onPart (part : σ → τ) (restore : σ → τ → σ) (x : Action τ α) : Action σ α := fun s =>
  match x (part s) with
  | (r, t) => (r, restore s t)

@[simp] theorem pure_apply (a : α) (s : σ) : (pure a : Action σ α) s = (.ok a, s) := rfl

theorem bind_apply (x : Action σ α) (f : α → Action σ β) (s : σ) :
    (x >>= f) s = match x s with
      | (.ok a, s) => f a s
      | (.error e, s) => (.error e, s) := rfl

theorem bind_ok {x : Action σ α} {f : α → Action σ β} {s s' : σ} {a : α}
    (h : x s = (.ok a, s')) : (x >>= f) s = f a s' := by
  rw [bind_apply, h]

theorem bind_error {x : Action σ α} {f : α → Action σ β} {s s' : σ} {e : StorageError}
    (h : x s = (.error e, s')) : (x >>= f) s = (.error e, s') := by
  rw [bind_apply, h]

/-- An answer that is only changed leaves the same state. -/
theorem snd_bind_pure (x : Action σ α) (f : α → β) (s : σ) :
    ((x >>= fun a => pure (f a)) s).2 = (x s).2 := by
  rw [bind_apply]
  rcases x s with ⟨_ | _, _⟩ <;> rfl

instance : LawfulMonad (Action σ) :=
  LawfulMonad.mk' (Action σ)
    (fun x => by
      funext s
      show (x >>= fun a => pure (id a)) s = x s
      rw [bind_apply]
      rcases x s with ⟨_ | _, _⟩ <;> rfl)
    (fun _ _ => rfl)
    (fun x f g => by
      funext s
      simp only [bind_apply]
      rcases x s with ⟨_ | _, _⟩ <;> rfl)

end Action

end DocumentStore
