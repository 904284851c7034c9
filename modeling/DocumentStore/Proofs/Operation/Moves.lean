import DocumentStore.Proofs.Operation.Scopes
import DocumentStore.Proofs.Operation.Tenants
import DocumentStore.Proofs.Tenancy.Known
set_option autoImplicit false

/-!
# Everything that can happen to a deployment

Between the steps of its handles, streams that they handed out are read in any portions and at any
time, and the index is asked about namespaces.  The store may have other users, who leave it in any
state.
-/

namespace DocumentStore.Deployment

/-- Something done with a deployment: a step of its handles, or that items are pulled from a stream that
was opened before, and makes its calls under the policy of its handle. -/
inductive Move : Type 1 where
  | step {ι : Type} [RecordId ι] (s : Step ι)
  | pull {α : Type} {policy : Policy} (h : Handle) (count : Option Nat) (stream : ItemStream α)
    (huses : stream.source.Uses policy)

/-- What a move does, and what is observed of it. -/
def Move.perform : Move → Deployment → Observation × Deployment
  | @step _ _ s, d =>
    match s.perform d with
    | (answer, d) => (.answer answer, d)
  | .pull h count stream _, d =>
    match d.pull h count stream with
    | (drained, rest, d) => (.items drained rest, d)

/-- A question about namespaces and tenants. -/
inductive Inquiry where
  | contains (space : Namespace)
  | validate (space : Namespace)
  | spaces
  | tenants

/-- What a question changes. -/
def Inquiry.perform : Inquiry → Action Deployment Unit
  | .contains space => do
    let _ ← onIndex (NamespaceIndex.contains space)
  | .validate space => do
    let _ ← onIndex (NamespaceResolver.validate true space)
  | .spaces => do
    let _ ← onIndex NamespaceIndex.all
  | .tenants => do
    let _ ← allTenants

/-- Something that happens to a deployment: a move, a question, or that other users of the store leave
it in another state. -/
inductive Happening : Type 1 where
  | move (m : Move)
  | inquire (q : Inquiry)
  | others (store : Store)

namespace Happening

/-- The deployment after something has happened. -/
def apply (d : Deployment) : Happening → Deployment
  | .move m => (m.perform d).2
  | .inquire q => (q.perform d).2
  | .others store => { d with store }

/-- Whether the open transaction of a handle is committed. -/
def Commits (h : Handle) : Happening → Prop
  | .move (@Move.step _ _ (.commit h')) => h' = h
  | _ => False

end Happening

/-- The deployment after everything of a list has happened. -/
def after (d : Deployment) (happenings : List Happening) : Deployment :=
  happenings.foldl Happening.apply d

@[simp] theorem after_nil (d : Deployment) : d.after [] = d := rfl

@[simp] theorem after_cons (d : Deployment) (x : Happening) (rest : List Happening) :
    d.after (x :: rest) = (x.apply d).after rest := rfl

theorem after_concat (d : Deployment) (past : List Happening) (x : Happening) :
    d.after (past ++ [x]) = x.apply (d.after past) := List.foldl_concat ..

/-! ## What moves beside the steps change -/

/-- A question changes the store and the index as asking the index does, and nothing else. -/
theorem Inquiry.perform_eq (q : Inquiry) (d : Deployment) :
    ∃ s, Indexed.Surveyed ⟨d.store, d.index⟩ s ∧
      (q.perform d).2 = { d with store := s.store, index := s.index } := by
  have hindex {α : Type} (x : Action Indexed α) :
      ((onIndex x >>= fun _ => pure ()) d).2 =
        { d with store := (x ⟨d.store, d.index⟩).2.store, index := (x ⟨d.store, d.index⟩).2.index } := by
    rw [Action.bind_apply, onIndex, Action.onPart]
    rcases x ⟨d.store, d.index⟩ with ⟨e | a, s⟩ <;> rfl
  cases q with
  | contains space => exact ⟨_, (NamespaceIndex.contains_surveyed space _).1, hindex _⟩
  | validate space => exact ⟨_, (NamespaceResolver.validate_surveyed space _).1, hindex _⟩
  | spaces => exact ⟨_, (NamespaceIndex.all_surveyed _).1, hindex _⟩
  | tenants => exact ⟨_, (d.resolver.allTenants_surveyed _).1, hindex _⟩

/-- Reading a stream makes a chain of calls that write nothing. -/
theorem pull_eq {α : Type} (d : Deployment) (h : Handle) (count : Option Nat)
    {stream : ItemStream α} {policy : Policy} (huses : stream.source.Uses policy) :
    ∃ c, Connection.Chain policy (fun _ => False) (d.connection h) c ∧
      (d.pull h count stream).2.2 = d.withConnection h c := by
  cases count with
  | some count => exact ⟨_, ItemStream.take_chain count huses _, rfl⟩
  | none => exact ⟨_, ItemStream.take_chain (stream.source.bound d.store.size + 1) huses _, rfl⟩

end DocumentStore.Deployment
