import DocumentStore.Proofs.Access.Chunks
import DocumentStore.Proofs.Record.Maps
set_option autoImplicit false

/-!
# Batches straight on the store

Writing, deleting and looking up many items straight on the store is doing it for each in order, in
calls that are never too large; a call that fails ends the operation with the items of whole calls
done.  Records are all turned into entities before the first call, so that a record that cannot be
written leaves the store without a call.
-/

namespace DocumentStore

namespace RecordStore

variable {ι : Type} [RecordId ι]

/-- The entities that records are written as, in order, in the namespace of the caller. -/
def Converts (s : RecordStore ι) (caller : Caller) (records : List (Record ι))
    (batch : List Entity) : Prop :=
  ∃ space, s.settings.resolver.current caller.tenant = .ok space ∧
    records.Forall₂ (fun r e => r.toEntity s.settings.mapping ⟨space, s.settings.kind⟩ = .ok e) batch

theorem entitiesOf_eq_ok_iff {mapping : ColumnMapping} {keys : KeyFactory}
    {records : List (Record ι)} {batch : List Entity} :
    entitiesOf mapping keys records = .ok batch ↔
      records.Forall₂ (fun r e => r.toEntity mapping keys = .ok e) batch := by
  induction records generalizing batch with
  | nil =>
    rw [List.forall₂_nil_left_iff, entitiesOf]
    exact ⟨fun h => (Except.ok.inj h).symm, fun h => congrArg Except.ok h.symm⟩
  | cons r rest ih =>
    rw [List.forall₂_cons_left_iff]
    constructor
    · intro h
      obtain ⟨e, he, h⟩ := Outcome.bind_eq_ok h
      obtain ⟨es, hes, h⟩ := Outcome.bind_eq_ok h
      cases h
      exact ⟨e, es, he, ih.mp hes, rfl⟩
    · rintro ⟨e, es, he, hes, rfl⟩
      rw [entitiesOf, he, ih.mpr hes]
      rfl

/-- Records that cannot all be written are refused without a call; others are put together. -/
theorem writeAll_of_ne_nil (s : RecordStore ι) (caller : Caller) {records : List (Record ι)}
    (h : records ≠ []) (context : Context) :
    s.writeAll caller records context =
      match s.settings.resolver.current caller.tenant with
      | .error e => (.error e, context)
      | .ok space =>
        let kept := { context with keys := context.keys.keep ⟨space, s.settings.kind⟩ }
        match entitiesOf s.settings.mapping ⟨space, s.settings.kind⟩ records with
        | .error e => (.error e, kept)
        | .ok batch =>
          s.putAll ⟨space, s.settings.kind⟩ batch ("records=" ++ toString batch.length) kept := by
  rw [writeAll, if_neg (by simp [h]), keys, Context.currentKeys]
  cases s.settings.resolver.current caller.tenant with
  | error e => rfl
  | ok space =>
    simp only [Action.bind_apply, Action.ofOutcome, Context.keyFactory]
    cases entitiesOf s.settings.mapping ⟨space, s.settings.kind⟩ records <;> rfl

omit [RecordId ι] in
theorem putAll_connection (s : RecordStore ι) (keys : KeyFactory) (batch : List Entity)
    (what : String) (context : Context) :
    ((s.putAll keys batch what context).1, (s.putAll keys batch what context).2.connection) =
      Connection.put s.settings.policy batch (s.label what) context.connection := by
  simp only [putAll, Action.bind_apply, Context.onConnection, Action.onPart]
  rcases Connection.put s.settings.policy batch (s.label what) context.connection with ⟨_ | _, c⟩ <;>
    rfl

theorem writeAll_of_not_converts {s : RecordStore ι} {caller : Caller} {records : List (Record ι)}
    (hne : records ≠ []) (h : ∀ batch, ¬ s.Converts caller records batch) (context : Context) :
    ∃ e, (s.writeAll caller records context).1 = .error e ∧
      (s.writeAll caller records context).2.connection = context.connection := by
  rw [s.writeAll_of_ne_nil caller hne]
  cases hspace : s.settings.resolver.current caller.tenant with
  | error e => exact ⟨e, rfl, rfl⟩
  | ok space =>
    dsimp only
    cases hbatch : entitiesOf s.settings.mapping ⟨space, s.settings.kind⟩ records with
    | error e => exact ⟨e, rfl, rfl⟩
    | ok batch => exact absurd ⟨space, hspace, entitiesOf_eq_ok_iff.mp hbatch⟩ (h batch)

theorem writeAll_of_converts {s : RecordStore ι} {caller : Caller} {records : List (Record ι)}
    {batch : List Entity} (hne : records ≠ []) (h : s.Converts caller records batch)
    (context : Context) :
    ((s.writeAll caller records context).1, (s.writeAll caller records context).2.connection) =
      Connection.put s.settings.policy batch
        (s.label ("records=" ++ toString batch.length)) context.connection := by
  obtain ⟨space, hspace, hconverts⟩ := h
  rw [s.writeAll_of_ne_nil caller hne, hspace]
  dsimp only
  rw [entitiesOf_eq_ok_iff.mpr hconverts]
  exact s.putAll_connection ..

end RecordStore

namespace Connection

theorem Direct.put_nil {policy : Policy} {c : Connection} (h : c.Direct policy) (label : String) :
    put policy [] label c = (.ok (), c) := by
  rw [put, execute_of_inactive h.isOpen h.inactive, if_neg (by simp [h.policy]), executeDirectly,
    Session.put, chunks]
  rfl

/-- Bulk operations straight on the store, in calls of at most the effective limit, whatever failures
happen in the meantime. -/
theorem bulk_inParts {ι : Type} [RecordId ι] {policy : Policy} {c : Connection}
    (hdirect : c.Direct policy) (hread : max policy.limits.read 1 ≤ c.store.limits.read)
    (hwrite : max policy.limits.write 1 ≤ c.store.limits.write) :
    -- the operations are those with failures in the meantime, where there are none
    (put policy = bulk (fun _ => []) policy .write policy.limits.write Session.putPart fun _ => ()) ∧
    (delete policy =
      bulk (fun _ => []) policy .write policy.limits.write Session.deletePart fun _ => ()) ∧
    (lookup policy =
      bulk (fun _ => []) policy .read policy.limits.read Session.lookupPart List.flatten) ∧
    -- call `i` is for the items after `i` whole parts
    (∀ {α : Type} (limit : Nat) (items : List α), chunks limit items =
      (List.range (items.length ⌈/⌉ max limit 1)).map fun i =>
        (items.drop (i * max limit 1)).take (max limit 1)) ∧
    (∀ failures batch label,
      InParts .put (fun documents e => documents.insert e.key e.properties) Store.put failures
        (max policy.limits.write 1) batch label () c
        (bulk failures policy .write policy.limits.write Session.putPart (fun _ => ()) batch label c)) ∧
    (∀ failures keys label,
      InParts .delete SortedMap.erase Store.delete failures (max policy.limits.write 1) keys label () c
        (bulk failures policy .write policy.limits.write Session.deletePart (fun _ => ()) keys label
          c)) ∧
    (∀ failures keys label,
      InParts .lookup (fun documents _ => documents) Store.lookup failures
        (max policy.limits.read 1) keys label (keys.map c.store.find?) c
        (bulk failures policy .read policy.limits.read Session.lookupPart List.flatten keys label
          c)) ∧
    -- records are put together, or refused without a call
    ∀ (s : RecordStore ι) (caller : Caller) (records : List (Record ι)) (context : Context),
      s.settings.policy = policy → context.connection = c →
      (records ≠ [] → (∀ batch, ¬ s.Converts caller records batch) →
        ∃ e, (s.writeAll caller records context).1 = .error e ∧
          (s.writeAll caller records context).2.connection = c) ∧
      ∀ batch, s.Converts caller records batch →
        ((s.writeAll caller records context).1, (s.writeAll caller records context).2.connection) =
          put policy batch (s.label ("records=" ++ toString batch.length)) c := by
  have hlimit : ∀ most, c.store.itemLimit? .put = some most → max policy.limits.write 1 ≤ most := by
    rintro most ⟨⟩
    exact hwrite
  refine ⟨put_eq_bulk policy, delete_eq_bulk policy, lookup_eq_bulk policy,
    fun limit items => chunks_eq_map_range limit items, ?_, ?_, ?_, ?_⟩
  · intro failures batch label
    exact hdirect.bulk Session.put_onStore failures .write hlimit (fun _ => ()) batch label
  · intro failures keys label
    exact hdirect.bulk Session.delete_onStore failures .write hlimit (fun _ => ()) keys label
  · intro failures keys label
    have hlimit : ∀ most, c.store.itemLimit? .lookup = some most →
        max policy.limits.read 1 ≤ most := by
      rintro most ⟨⟩
      exact hread
    have hlookup := hdirect.bulk Session.lookup_onStore failures .read hlimit List.flatten keys label
    have hall : ((chunks policy.limits.read keys).map (Session.found c.store.documents)).flatten =
        keys.map c.store.find? := by
      have hfound : Session.found c.store.documents = List.map c.store.find? := rfl
      rw [hfound, ← List.map_flatten, flatten_chunks]
    rw [hall] at hlookup
    exact hlookup
  · rintro s caller records context rfl rfl
    refine ⟨fun hne h => RecordStore.writeAll_of_not_converts hne h context, fun batch h => ?_⟩
    rcases records with _ | ⟨r, rest⟩
    · obtain ⟨space, -, hnone⟩ := h
      obtain rfl := List.forall₂_nil_left_iff.mp hnone
      rw [hdirect.put_nil]
      rfl
    · exact RecordStore.writeAll_of_converts (List.cons_ne_nil r rest) h context

/-- An empty store that takes two writes at a time and looks up one key at a time. -/
def noticeBoard : Connection := ⟨.empty ⟨1, 2⟩ 5, .zero, false, .idle⟩

/-- Five notices, the fourth in the place of the first. -/
def notices : List Entity :=
  [("a", 1), ("b", 2), ("c", 3), ("a", 4), ("d", 5)].map fun n =>
    ⟨⟨⟨""⟩, ⟨"notice"⟩, n.1⟩, .ofList [("number", .integer n.2)]⟩

/-- A failure of the third put. -/
def noticeOutage (i : Nat) : List (FailurePoint × String) :=
  if i = 2 then [(.call .put, "down")] else []

/-- The third of three calls fails, and the four notices of the first two calls are there. -/
theorem bulk_inParts_notices :
    noticeBoard.Direct ⟨⟨0, 2⟩, false⟩ ∧ max 0 1 ≤ noticeBoard.store.limits.read ∧
    max 2 1 ≤ noticeBoard.store.limits.write ∧
    ∃ c', bulk noticeOutage ⟨⟨0, 2⟩, false⟩ .write 2 Session.putPart (fun _ => ()) notices "notices"
        noticeBoard = (.error (.backend "notices; Put" "down"), c') ∧
      noticeBoard.store.Advanced .put 3
        ((notices.take 4).foldl (fun documents e => documents.insert e.key e.properties) ∅)
        c'.store := by
  have hdirect : noticeBoard.Direct ⟨⟨0, 2⟩, false⟩ := ⟨rfl, rfl, rfl⟩
  refine ⟨hdirect, by decide, by decide, ?_⟩
  have hends := (bulk_inParts (ι := String) hdirect (by decide) (by decide)).2.2.2.2.1 noticeOutage
    notices "notices"
  have hfails : (bulk noticeOutage ⟨⟨0, 2⟩, false⟩ .write 2 Session.putPart (fun _ => ()) notices
      "notices" noticeBoard).1.isOk = false := by
    decide +kernel
  generalize hr : bulk noticeOutage ⟨⟨0, 2⟩, false⟩ .write 2 Session.putPart (fun _ => ()) notices
      "notices" noticeBoard = result at hends hfails
  cases hends with
  | done => cases hfails
  | stopped k before message hless hbefore hcall hleft htold =>
    rcases htold with hwaiting | ⟨i, hi, htold⟩
    · cases hwaiting
    · have hshort : k * 2 < 5 := hless
      unfold noticeOutage at htold
      split at htold
      · next hthird =>
        obtain rfl : k = 2 := by omega
        obtain rfl : message = "down" := by simpa using htold
        exact ⟨_, rfl, hleft⟩
      · cases htold

end Connection

end DocumentStore
