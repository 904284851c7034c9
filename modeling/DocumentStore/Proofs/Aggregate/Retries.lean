import DocumentStore.Proofs.Access.Interrupted
import DocumentStore.Proofs.Aggregate.Isolation
import DocumentStore.Proofs.Aggregate.Truncation
set_option autoImplicit false

/-!
# Truncations that fail and are tried again

Straight on the store a truncation can fail at any page that it reads and at any part of what it deletes,
and then leaves the parts before deleted.  The cut stays where it was, whatever is gone behind it.  So
every attempt goes on where the one before it failed, and the one that succeeds leaves what a single
truncation would have left.
-/

namespace DocumentStore

open HistoryRecord DatedRecord

namespace AggregateStore

variable {ι : Type} [RecordId ι] {s : AggregateStore ι} {space : Namespace} {id : ι}

/-! ## Truncations with failures in the meantime -/

/-- Every entity of a stream, with failures that others let happen before each pull, by number. -/
def collectAmid (failures : Nat → List (FailurePoint × String)) :
    Nat → EntityStream → Action Connection (List Entity)
  | 0, _ => pure []
  | fuel + 1, stream => fun c =>
    match stream.pull (c.told (failures 0)) with
    | (⟨none, _⟩, c) => (.ok [], c)
    | (⟨some (.error e), _⟩, c) => (.error e, c)
    | (⟨some (.ok entity), rest⟩, c) =>
      match collectAmid (fun i => failures (i + 1)) fuel rest c with
      | (.ok more, c) => (.ok (entity :: more), c)
      | (.error e, c) => (.error e, c)

/-- A truncation, with failures that others let happen before each pull of an entity and before each
call that deletes. -/
def truncateAmid (s : AggregateStore ι) (reads deletes : Nat → List (FailurePoint × String))
    (caller : Caller) (id : ι) (index : Nat) : Action Context Nat := do
  let stream := s.historyEntities caller id s.settings.pageSize
  let entities ← Context.onConnection fun c =>
    collectAmid reads (stream.bound c.store.size + 1) stream c
  let doomed := (afterSnapshot index entities).map (·.key)
  if !doomed.isEmpty then
    Context.onConnection (Connection.bulk deletes s.settings.policy .write
      s.settings.policy.limits.write Session.deletePart (fun _ => ()) doomed (s.label id))
  return doomed.length

theorem collect_eq_collectAmid (fuel : Nat) (stream : EntityStream) :
    collect fuel stream = collectAmid (fun _ => []) fuel stream := by
  induction fuel generalizing stream with
  | zero => rfl
  | succ fuel ih =>
    funext c
    rw [collect, collectAmid]
    simp only [ih]
    rfl

/-- A truncation is one without failures in the meantime. -/
theorem truncateOlderThan_eq_truncateAmid (s : AggregateStore ι) :
    s.truncateOlderThan = s.truncateAmid (fun _ => []) (fun _ => []) := by
  funext caller id index
  simp only [truncateOlderThan, truncateAmid, collect_eq_collectAmid, Connection.delete_eq_bulk]

/-! ## One attempt -/

/-- Reading a history page by page gives all of it, or fails and has changed nothing. -/
theorem collectAmid_cases {store : Store} (hstore : store.WellSized) {policy : Policy} {w : Walk}
    {items : List Entity} (h : w.Pending store items) (hpolicy : w.policy = policy) {c : Connection}
    (hc : c.Direct policy) (hdata : Store.SameData store c.store)
    (failures : Nat → List (FailurePoint × String)) {fuel : Nat} (hfuel : items.length < fuel) :
    ∃ c', Connection.Wrote [] c c' ∧
      ((collectAmid failures fuel (.walk w) c = (.ok items, c') ∧
          c'.metrics.failures = c.metrics.failures) ∨
        ∃ e, collectAmid failures fuel (.walk w) c = (.error e, c') ∧
          c'.metrics.failures = c.metrics.failures.bump .query) := by
  induction fuel generalizing failures w items c with
  | zero => omega
  | succ fuel ih =>
    have htold := Connection.wrote_told c (failures 0)
    subst hpolicy
    have hmeets := h.pull_meets hstore (hc.of_wrote htold) (hdata.trans htold.sameData)
    rw [collectAmid]
    dsimp only
    rw [EntityStream.pull]
    rcases hp : w.pull (c.told (failures 0)) with ⟨⟨item, w'⟩, c'⟩
    rw [hp] at hmeets
    cases hmeets with
    | failed hwrote hcounted =>
      exact ⟨c', htold.trans hwrote, .inr ⟨_, rfl, hcounted⟩⟩
    | given hwrote hcounted hpolicy hpending =>
      have hread := htold.trans hwrote
      cases items with
      | nil => exact ⟨c', hread, .inl ⟨rfl, hcounted⟩⟩
      | cons e more =>
        obtain ⟨c'', hmore, hcases⟩ := ih hpending hpolicy (hc.of_wrote hread)
          (hdata.trans hread.sameData) (fun i => failures (i + 1)) (Nat.lt_of_succ_lt_succ hfuel)
        refine ⟨c'', hread.trans hmore, ?_⟩
        dsimp only [List.head?_cons, Option.map_some]
        rcases hcases with ⟨hcollect, hcounted'⟩ | ⟨e', hcollect, hcounted'⟩
        · rw [List.tail_cons] at hcollect
          rw [hcollect]
          exact .inl ⟨rfl, hcounted'.trans hcounted⟩
        · rw [hcollect]
          exact .inr ⟨e', rfl, hcounted'.trans (congrArg (·.bump .query) hcounted)⟩

/-- How a truncation ends that is to delete entries, newest first. -/
inductive Ends (s : AggregateStore ι) (space : Namespace) (id : ι) (doomed : List DatedRecord)
    (before : Connection) : Outcome Nat × Connection → Prop
  /-- No call fails, and the entries are deleted. -/
  | done {after : Connection}
    (hwrote : Connection.Wrote (Write.ofDeleted (doomed.map (s.entryKey space id))) before after)
    (hcounted : after.metrics.failures = before.metrics.failures) :
    Ends s space id doomed before (.ok doomed.length, after)
  /-- The query for a page fails, and nothing is deleted. -/
  | unread {e : StorageError} {after : Connection} (hwrote : Connection.Wrote [] before after)
    (hcounted : after.metrics.failures = before.metrics.failures.bump .query) :
    Ends s space id doomed before (.error e, after)
  /-- A call that deletes fails, with the first entries deleted and no others. -/
  | stopped {e : StorageError} {after : Connection} (k : Nat) (hk : k < doomed.length)
    (hwrote : Connection.Wrote (Write.ofDeleted ((doomed.take k).map (s.entryKey space id))) before after)
    (hcounted : after.metrics.failures = before.metrics.failures.bump .delete) :
    Ends s space id doomed before (.error e, after)

section Attempt

variable {found : List DatedRecord} {caller : Caller} {context : Context}
  (h : s.Holds space id context.connection.store found)
  (hspace : s.settings.resolver.current caller.tenant = .ok space)
  (hc : context.connection.Direct s.settings.policy)
  (hsized : context.connection.store.WellSized) (hpage : 1 ≤ s.settings.pageSize)

include h hspace hc hsized hpage

/-- The reading of a truncation gives everything that is held, or fails, and changes nothing. -/
theorem Holds.collectAmid_history (reads : Nat → List (FailurePoint × String)) : ∃ r c,
    Context.onConnection (fun c => collectAmid reads
        ((s.historyEntities caller id s.settings.pageSize).bound c.store.size + 1)
        (s.historyEntities caller id s.settings.pageSize) c) context =
      (r, { context with connection := c }) ∧ Connection.Wrote [] context.connection c ∧
      ((r = .ok (found.map (entity ⟨space, s.settings.kind⟩ (RecordId.toName id))) ∧
          c.metrics.failures = context.connection.metrics.failures) ∨
        ∃ e, r = .error e ∧
          c.metrics.failures = context.connection.metrics.failures.bump .query) := by
  have hpending : Walk.Pending context.connection.store
      (.start s.settings.policy (s.historyQuery space id) s.settings.pageSize)
      (found.map (entity ⟨space, s.settings.kind⟩ (RecordId.toName id))) := by
    rw [← h.results]
    exact Walk.pending_start _ _ _ rfl
  have hfuel := Nat.lt_succ_of_le (EntityStream.Pending.walk hpending).length_le
  obtain ⟨c, hread, hcases⟩ := collectAmid_cases hsized hpending rfl hc (.refl _) reads hfuel
  rw [historyEntities_eq_walk hspace hpage]
  unfold Context.onConnection Action.onPart
  dsimp only
  rcases hcases with ⟨hcollect, hcounted⟩ | ⟨e, hcollect, hcounted⟩ <;> rw [hcollect]
  · exact ⟨_, c, rfl, hread, .inl ⟨rfl, hcounted⟩⟩
  · exact ⟨_, c, rfl, hread, .inr ⟨e, rfl, hcounted⟩⟩

/-- A truncation straight on the store ends so, whatever failures it meets. -/
theorem Holds.truncateAmid (reads deletes : Nat → List (FailurePoint × String)) (index : Nat) :
    s.Ends space id (behind index found) context.connection
      ((s.truncateAmid reads deletes caller id index context).1,
        (s.truncateAmid reads deletes caller id index context).2.connection) := by
  obtain ⟨r, c, hcollect, hread, ⟨rfl, hcounted⟩ | ⟨e, rfl, hcounted⟩⟩ :=
    h.collectAmid_history hspace hc hsized hpage reads
  · rw [AggregateStore.truncateAmid, Action.bind_ok hcollect]
    dsimp only
    rw [map_key_afterSnapshot, List.length_map]
    cases hbehind : behind index found with
    | nil => exact .done hread hcounted
    | cons w rest =>
      rw [← hbehind]
      have hsome : (!((behind index found).map (s.entryKey space id)).isEmpty) = true := by
        rw [hbehind]
        rfl
      obtain ⟨c', ⟨hdelete, hwrote, hcounted'⟩ | ⟨e, k, hdelete, hk, hwrote, hcounted'⟩⟩ :=
        (hc.of_wrote hread).delete_amid deletes ((behind index found).map (s.entryKey space id))
          (s.label id)
      · rw [if_pos hsome, Action.bind_apply, Context.onConnection, Action.onPart, hdelete]
        exact .done (hread.trans hwrote) (hcounted'.trans hcounted)
      · rw [if_pos hsome, Action.bind_apply, Context.onConnection, Action.onPart, hdelete]
        rw [List.length_map] at hk
        rw [← List.map_take] at hwrote
        exact .stopped k hk (hread.trans hwrote)
          (hcounted'.trans (congrArg (·.bump .delete) hcounted))
  · rw [AggregateStore.truncateAmid, Action.bind_error hcollect]
    exact .unread hread hcounted

end Attempt

/-! ## One attempt after another -/

/-- A truncation on someone's behalf, and the failures that others let happen in the meantime. -/
structure Attempt where
  caller : Caller
  reads : Nat → List (FailurePoint × String)
  deletes : Nat → List (FailurePoint × String)

/-- An attempt to truncate a history. -/
def attempt (s : AggregateStore ι) (id : ι) (index : Nat) (a : Attempt) : Action Context Nat :=
  s.truncateAmid a.reads a.deletes a.caller id index

/-- What attempts leave, made one after another, whether they fail or not. -/
def attempts (s : AggregateStore ι) (id : ι) (index : Nat) (made : List Attempt) (context : Context) :
    Context :=
  made.foldl (fun context a => (s.attempt id index a context).2) context

section Attempts

variable {found gone left : List DatedRecord} {context reached : Context} {index : Nat}

/-- Whether the history is as it was before, but for the first entries behind the cut, which are gone. -/
structure Reached (s : AggregateStore ι) (space : Namespace) (id : ι) (index : Nat)
    (found : List DatedRecord) (before : Connection) (gone left : List DatedRecord)
    (c : Connection) : Prop where
  behind : behind index found = gone ++ left
  wrote : Connection.Wrote (Write.ofDeleted (gone.map (s.entryKey space id))) before c

variable (h : s.Holds space id context.connection.store found)
  (hreached : s.Reached space id index found context.connection gone left reached.connection)

include h hreached

/-- The entries in front of the cut are still there, and those behind it that are left. -/
theorem Reached.holds : s.Holds space id reached.connection.store (upTo index found ++ left) := by
  refine Holds.remove ?_ hreached.wrote.sameData.documents
  rw [← hreached.behind, upTo_append_behind]
  exact h

omit h in
theorem Reached.left_eq_nil (hnone : DatedRecord.behind index found = []) : left = [] := by
  rw [hreached.behind] at hnone
  exact (List.append_eq_nil_iff.mp hnone).2

variable (hc : context.connection.Direct s.settings.policy)
  (hsized : context.connection.store.WellSized) (hpage : 1 ≤ s.settings.pageSize)

include hc hsized hpage

/-- An attempt is to delete what is left behind the cut. -/
theorem Reached.attempt_ends {a : Attempt}
    (hspace : s.settings.resolver.current a.caller.tenant = .ok space) :
    s.Ends space id left reached.connection
      ((s.attempt id index a reached).1, (s.attempt id index a reached).2.connection) := by
  have hends := (hreached.holds h).truncateAmid hspace (hc.of_wrote hreached.wrote)
    (wellSized_of_wrote_ofDeleted hreached.wrote hsized) hpage a.reads a.deletes index
  rwa [behind_upTo_append hreached.left_eq_nil] at hends

/-- An attempt that succeeds leaves nothing behind the cut; one that fails leaves what it did not delete. -/
theorem Reached.attempt {a : Attempt}
    (hspace : s.settings.resolver.current a.caller.tenant = .ok space) :
    ∃ more rest, left = more ++ rest ∧
      s.Reached space id index found context.connection (gone ++ more) rest
        (s.attempt id index a reached).2.connection ∧
      ∀ count, (s.attempt id index a reached).1 = .ok count → rest = [] := by
  have hafter {more rest : List DatedRecord} (hleft : left = more ++ rest) {c : Connection}
      (hwrote : Connection.Wrote (Write.ofDeleted (more.map (s.entryKey space id)))
        reached.connection c) :
      s.Reached space id index found context.connection (gone ++ more) rest c := by
    refine ⟨by rw [hreached.behind, hleft, List.append_assoc], ?_⟩
    rw [List.map_append, Write.ofDeleted_append]
    exact hreached.wrote.trans hwrote
  have hends := hreached.attempt_ends h hc hsized hpage hspace
  rcases hr : s.attempt id index a reached with ⟨r, context'⟩
  rw [hr] at hends
  cases hends with
  | done hwrote _ =>
    exact ⟨left, [], (List.append_nil _).symm, hafter (List.append_nil _).symm hwrote, fun _ _ => rfl⟩
  | unread hwrote _ => exact ⟨[], left, rfl, hafter rfl hwrote, fun _ hok => by cases hok⟩
  | stopped k hk hwrote _ =>
    have hsplit := (List.take_append_drop k left).symm
    exact ⟨left.take k, left.drop k, hsplit, hafter hsplit hwrote, fun _ hok => by cases hok⟩

/-- Attempts delete first entries behind the cut, and nothing else. -/
theorem Reached.attempts {made : List Attempt}
    (hspace : ∀ a ∈ made, s.settings.resolver.current a.caller.tenant = .ok space) :
    ∃ gone left, s.Reached space id index found context.connection gone left
      (s.attempts id index made reached).connection := by
  induction made generalizing gone left reached with
  | nil => exact ⟨gone, left, hreached⟩
  | cons a rest ih =>
    obtain ⟨ha, hrest⟩ := List.forall_mem_cons.mp hspace
    obtain ⟨_, _, -, hnext, -⟩ := hreached.attempt h hc hsized hpage ha
    exact ih hnext hrest

/-- An attempt that succeeds leaves the documents without everything behind the cut. -/
theorem Reached.documents_of_ok {a : Attempt}
    (hspace : s.settings.resolver.current a.caller.tenant = .ok space) {count : Nat}
    (hok : (s.attempt id index a reached).1 = .ok count) :
    (s.attempt id index a reached).2.connection.store.documents =
      Write.applyAll context.connection.store.documents
        (Write.ofDeleted ((DatedRecord.behind index found).map (s.entryKey space id))) := by
  obtain ⟨more, rest, -, hnext, hrest⟩ := hreached.attempt h hc hsized hpage hspace
  rw [hnext.wrote.sameData.documents, hnext.behind, hrest count hok, List.append_nil]
  rfl

end Attempts

theorem Holds.mem_entities {store : Store} {found : List DatedRecord} (h : s.Holds space id store found)
    {w : DatedRecord} (hw : w ∈ found) :
    w.entity ⟨space, s.settings.kind⟩ (RecordId.toName id) ∈ store.entities := by
  obtain ⟨stored, rfl, hstored⟩ := h
  have hmem : w.entity ⟨space, s.settings.kind⟩ (RecordId.toName id) ∈
      stored.map (entity ⟨space, s.settings.kind⟩ (RecordId.toName id)) :=
    List.mem_map_of_mem ((Sorted.stable_perm _ stored).mem_iff.mp hw)
  rw [← hstored] at hmem
  exact (List.mem_filter.mp hmem).1

/-- What holds between attempts, with the entries `gone` deleted from behind the cut and `left` not. -/
structure Interim (s : AggregateStore ι) (space : Namespace) (id : ι) (index : Nat)
    (kept gone left : List DatedRecord) (context reached : Context) : Prop where
  /-- Nothing else is deleted, and nothing written. -/
  wrote : Connection.Wrote (Write.ofDeleted (gone.map (s.entryKey space id))) context.connection
    reached.connection
  /-- What is read back to the latest snapshot is the same as before. -/
  read : ∀ reader batch, s.settings.resolver.current reader.tenant = .ok space →
    (s.readHistory reader id batch reached.undisturbed).1 =
      (s.readHistory reader id batch context.undisturbed).1
  /-- The entries in front of the cut are stored. -/
  kept : ∀ w ∈ kept, w.entity ⟨space, s.settings.kind⟩ (RecordId.toName id) ∈
    reached.connection.store.entities
  /-- The next attempt deletes what is left, or fails. -/
  next : ∀ a : Attempt, s.settings.resolver.current a.caller.tenant = .ok space →
    s.Ends space id left reached.connection
      ((s.attempt id index a reached).1, (s.attempt id index a reached).2.connection)
  /-- If it succeeds, it leaves the documents that a single one would have left. -/
  converges : ∀ a single : Attempt, s.settings.resolver.current a.caller.tenant = .ok space →
    s.settings.resolver.current single.caller.tenant = .ok space → ∀ count count',
    (s.attempt id index a reached).1 = .ok count → (s.attempt id index single context).1 = .ok count' →
    (s.attempt id index a reached).2.connection.store.documents =
      (s.attempt id index single context).2.connection.store.documents
  /-- It succeeds unless it is disturbed, in calls that the store lets in. -/
  succeeds : ∀ caller, s.settings.resolver.current caller.tenant = .ok space →
    min (max s.settings.policy.limits.write 1) left.length ≤ context.connection.store.limits.write →
    (s.truncateOlderThan caller id index reached.undisturbed).1 = .ok left.length

variable (s id) in
/-- A truncation straight on the store may fail at any page and at any deletion, and be tried again as
often as one likes.  An attempt in which a call fails answers with an error; it has deleted nothing if
that was a query, and the first of the entries left behind the cut otherwise. -/
theorem truncation_retries {context : Context} (hc : context.connection.Direct s.settings.policy)
    (hsized : context.connection.store.WellSized) (hpage : 1 ≤ s.settings.pageSize)
    (hhistories : HistoriesOnly ⟨space, s.settings.kind⟩ context.connection.store.documents)
    (index : Nat) :
    ∃ kept removed : List DatedRecord, IsCut index kept removed ∧
      context.connection.store.results (s.historyQuery space id) =
        (kept ++ removed).map (entity ⟨space, s.settings.kind⟩ (RecordId.toName id)) ∧
      ∀ made : List Attempt,
        (∀ a ∈ made, s.settings.resolver.current a.caller.tenant = .ok space) →
        ∃ gone left, removed = gone ++ left ∧
          s.Interim space id index kept gone left context (s.attempts id index made context) := by
  obtain ⟨found, h⟩ := exists_holds s id hhistories
  have hstart : s.Reached space id index found context.connection [] (behind index found)
      context.connection := ⟨rfl, .refl _⟩
  refine ⟨upTo index found, behind index found, isCut index found, ?_, fun made hmade => ?_⟩
  · rw [upTo_append_behind]
    exact h.results
  obtain ⟨gone, left, hreached⟩ := hstart.attempts h hc hsized hpage hmade
  have hholds := hreached.holds h
  have hc' := hc.of_wrote hreached.wrote
  have hsized' := wellSized_of_wrote_ofDeleted hreached.wrote hsized
  have hserves {g : Context} (hg : g.connection.Direct s.settings.policy) :
      g.undisturbed.connection.Serves g.undisturbed.connection.store :=
    .of_inactive (.refl rfl) hg.isOpen hg.inactive
  have hundisturbed {g : Context} (hg : g.connection.store.WellSized) :
      g.undisturbed.connection.store.WellSized := ⟨hg.pageLimit, hg.size⟩
  refine ⟨gone, left, hreached.behind, ?_⟩
  exact {
    wrote := hreached.wrote
    read := fun reader batch hreader => (h.congr rfl).readHistory_eq hreader (hholds.congr rfl)
      hreached.left_eq_nil (hserves hc) (hserves hc') (hundisturbed hsized) (hundisturbed hsized')
    kept := fun w hw => hholds.mem_entities (List.mem_append_left _ hw)
    next := fun a ha => hreached.attempt_ends h hc hsized hpage ha
    converges := fun a single ha hsingle count count' hok hok' => by
      rw [hreached.documents_of_ok h hc hsized hpage ha hok,
        hstart.documents_of_ok h hc hsized hpage hsingle hok']
    succeeds := fun caller hcaller hroom => by
      have hleft := behind_upTo_append hreached.left_eq_nil
      have hholds : s.Holds space id (s.attempts id index made context).undisturbed.connection.store
          (upTo index found ++ left) := hholds.congr rfl
      have hlimits : (s.attempts id index made context).undisturbed.connection.store.limits =
          context.connection.store.limits := hreached.wrote.sameData.limits
      obtain ⟨_, hdone, -⟩ := hholds.truncateOlderThan hcaller (hserves hc') hc'.inactive
        (hundisturbed hsized') hpage (by rwa [hleft, hlimits])
      rw [hdone, hleft] }

/-- A handle straight on the store whose calls carry one entity each. -/
def directStore : AggregateStore String :=
  ⟨{ singleStore.settings with policy := ⟨⟨1, 1⟩, false⟩ }⟩

/-- In one attempt the third page fails, and in the next the second entry that is to be deleted. -/
def failedAttempts : List Attempt :=
  [⟨default, fun i => if i = 2 then [(.call .query, "lost")] else [], fun _ => []⟩,
    ⟨default, fun _ => [], fun i => if i = 1 then [(.call .delete, "lost")] else []⟩]

/-- Of the two events behind the snapshot the attempts leave one, and the next call deletes it. -/
theorem truncation_retries_orders :
    orders.connection.Direct directStore.settings.policy ∧ orders.connection.store.WellSized ∧
      HistoriesOnly ⟨⟨""⟩, ⟨"order"⟩⟩ orders.connection.store.documents ∧
      ∃ kept gone left : List DatedRecord, IsCut 0 kept (gone ++ left) ∧ left.length = 1 ∧
        (directStore.attempts "a" 0 failedAttempts orders).connection.store.size + 1 =
          orders.connection.store.size ∧
        directStore.Interim ⟨""⟩ "a" 0 kept gone left orders
          (directStore.attempts "a" 0 failedAttempts orders) := by
  have hspace (caller : Caller) : directStore.settings.resolver.current caller.tenant = .ok ⟨""⟩ := rfl
  have hdirect : orders.connection.Direct directStore.settings.policy :=
    ⟨by decide +kernel, by decide +kernel, rfl⟩
  have hsized : orders.connection.store.WellSized := ⟨by decide +kernel, by decide +kernel⟩
  obtain ⟨kept, _, hcut, -, hretries⟩ :=
    truncation_retries directStore "a" hdirect hsized (by decide) historiesOnly_orders 0
  obtain ⟨gone, left, rfl, hinterim⟩ := hretries failedAttempts fun a _ => hspace a.caller
  have hroom : min (max directStore.settings.policy.limits.write 1) left.length ≤
      orders.connection.store.limits.write := by
    have hlimit : orders.connection.store.limits.write = 1 := by decide +kernel
    rw [hlimit]
    exact Nat.min_le_left ..
  have hnext := hinterim.succeeds default (hspace default) hroom
  have hgiven : (directStore.truncateOlderThan default "a" 0
      (directStore.attempts "a" 0 failedAttempts orders).undisturbed).1 = .ok 1 := by
    decide +kernel
  exact ⟨hdirect, hsized, historiesOnly_orders, kept, gone, left, hcut,
    Except.ok.inj (hnext.symm.trans hgiven), by decide +kernel, hinterim⟩

end AggregateStore

end DocumentStore
