import DocumentStore.Proofs.Access.Chains
import DocumentStore.Proofs.Access.Contexts
import DocumentStore.Proofs.Operation.Basic
set_option autoImplicit false

/-!
# Every operation is a chain of calls

Under every policy, in a transaction or not, and whichever calls fail, an operation makes calls of its
handle's connection only, and writes nothing but what `Operation.writes` plans.
-/

namespace DocumentStore

open Context

variable {ι : Type} [RecordId ι] {policy : Policy} {allowed : Write → Prop}

/-! ## Actions of handles -/

/-- An action of a handle whose calls form a chain. -/
def Context.Chains {α : Type} (policy : Policy) (allowed : Write → Prop) (x : Action Context α) :
    Prop :=
  ∀ s, Connection.Chain policy allowed s.connection (x s).2.connection

namespace Context.Chains

variable {α β : Type}

theorem quiet {x : Action Context α} {answer : Outcome α} (h : Quiet x answer) :
    Chains policy allowed x := by
  intro s
  rw [(h s).2]
  exact .refl

theorem onConnection {x : Action Connection α} (h : Connection.Chains policy allowed x) :
    Chains policy allowed (onConnection x) :=
  fun s => h s.connection

theorem bind {x : Action Context α} {f : α → Action Context β} (hx : Chains policy allowed x)
    (hf : ∀ a, Chains policy allowed (f a)) : Chains policy allowed (x >>= f) := by
  intro s
  have hfirst := hx s
  rw [Action.bind_apply]
  rcases hr : x s with ⟨e | a, s'⟩ <;> rw [hr] at hfirst
  · exact hfirst
  · exact hfirst.trans (hf a s')

/-- What comes after an action with a known answer is known to come after that answer. -/
theorem prepare {x : Action Context α} {f : α → Action Context β} {answer : Outcome α}
    (hx : Quiet x answer) (hf : ∀ a, answer = .ok a → Chains policy allowed (f a)) :
    Chains policy allowed (x >>= f) := by
  intro s
  obtain ⟨s', hr, hsame⟩ := hx.exists_eq s
  rw [Action.bind_apply, hr, ← hsame]
  cases answer with
  | error e => exact .refl
  | ok a => exact hf a rfl s'

end Context.Chains

/-! ## Records -/

namespace RecordStore

variable (s : RecordStore ι) (caller : Caller)

omit [RecordId ι] in
theorem scan_uses (space : Namespace) (filters : List ConjunctiveFilter) (order : List SortKey)
    (limit : Option Nat) (keysOnly : Bool) :
    (s.scan space filters order limit keysOnly).Uses s.settings.policy := by
  have hwalks : ∀ fs : List ConjunctiveFilter,
      ∀ w ∈ fs.map fun f => Walk.start s.settings.policy
        (s.scanQuery space order limit keysOnly (some f)) s.settings.pageSize,
        w.policy = s.settings.policy := by
    intro fs w hw
    obtain ⟨f, -, rfl⟩ := List.mem_map.mp hw
    rfl
  unfold scan
  match filters with
  | [] => exact rfl
  | [f] => exact rfl
  | f :: g :: rest =>
    dsimp only
    split
    · exact hwalks (f :: g :: rest)
    · exact hwalks (f :: g :: rest)

theorem indexMatching_uses (p : Predicate) :
    (s.indexMatching caller p).source.Uses s.settings.policy := by
  unfold indexMatching
  split
  · exact trivial
  · exact s.scan_uses ..

/-- A scan has made no call when its stream is handed out. -/
theorem readAllRecords_uses (q : RecordQuery ι) :
    ∃ stream, Quiet (s.readAllRecords caller q) (.ok stream) ∧
      stream.source.Uses s.settings.policy := by
  unfold readAllRecords
  cases s.scanTarget caller q.predicate with
  | error e => exact ⟨_, .pure _, trivial⟩
  | ok target =>
    obtain ⟨space, filters⟩ := target
    cases q.ids with
    | none => exact ⟨_, .pure _, s.scan_uses ..⟩
    | some ids => exact ⟨_, fun _ => ⟨rfl, rfl⟩, rfl⟩

omit [RecordId ι] in
theorem putAll_chains (keys : KeyFactory) {batch : List Entity} (what : String)
    (hbatch : ∀ w ∈ Write.ofEntities batch, allowed w) :
    Chains s.settings.policy allowed (s.putAll keys batch what) :=
  (Chains.onConnection fun _ => .put batch _ hbatch .refl).bind
    fun _ => .quiet (.keepNamespace keys.space)

end RecordStore

/-! ## Histories -/

namespace AggregateStore

theorem collect_chains (fuel : Nat) {stream : EntityStream} (h : stream.Uses policy) :
    Connection.Chains policy allowed (collect fuel stream) := by
  induction fuel generalizing stream with
  | zero => exact .pure []
  | succ fuel ih =>
    intro c
    obtain ⟨hpull, huses⟩ := EntityStream.pull_chain allowed h c
    rw [collect]
    dsimp only
    rcases hp : stream.pull c with ⟨⟨item, rest⟩, c'⟩
    rw [hp] at hpull huses
    cases item with
    | none => exact hpull
    | some item =>
      cases item with
      | error e => exact hpull
      | ok entity =>
        have hmore := hpull.trans (ih huses c')
        dsimp only
        rcases hm : collect fuel rest c' with ⟨e' | more, c''⟩ <;> rw [hm] at hmore
        · exact hmore
        · exact hmore

theorem readBack_chains (fuel : Nat) {stream : EntityStream} (h : stream.Uses policy)
    (events : List Event) : Connection.Chains policy allowed (readBack fuel stream events) := by
  induction fuel generalizing stream events with
  | zero => exact .pure _
  | succ fuel ih =>
    intro c
    obtain ⟨hpull, huses⟩ := EntityStream.pull_chain allowed h c
    rw [readBack]
    dsimp only
    rcases hp : stream.pull c with ⟨⟨item, rest⟩, c'⟩
    rw [hp] at hpull huses
    cases item with
    | none => exact hpull
    | some item =>
      cases item with
      | error e => exact hpull
      | ok entity =>
        dsimp only
        split
        · exact hpull
        · exact hpull
        · exact hpull.trans (ih huses _ c')

variable (s : AggregateStore ι) (caller : Caller)

theorem historyEntities_uses (id : ι) (batch : Nat) :
    (s.historyEntities caller id batch).Uses s.settings.policy := by
  unfold historyEntities
  split
  · exact trivial
  · split
    · exact trivial
    · exact rfl

theorem index_uses : (s.index caller).source.Uses s.settings.policy := by
  unfold index
  split
  · exact trivial
  · intro w hw
    obtain rfl := List.mem_singleton.mp hw
    rfl

theorem putAll_chains (id : ι) (keys : KeyFactory) {batch : List Entity}
    (hbatch : ∀ w ∈ Write.ofEntities batch, allowed w) :
    Chains s.settings.policy allowed (s.putAll id keys batch) :=
  (Chains.onConnection fun _ => .put batch _ hbatch .refl).bind
    fun _ => .quiet (.keepNamespace keys.space)

theorem writeRecords_chains (id : ι) (records : List HistoryRecord)
    (hallowed : ∀ ws, Operation.historyWrites s.settings caller id records = .ok ws →
      ∀ w ∈ ws, allowed w) :
    Chains s.settings.policy allowed (s.writeRecords caller id records) := by
  refine .prepare (.currentKeys _ _ _) fun keys hkeys => s.putAll_chains id keys ?_
  refine hallowed _ ?_
  rw [Operation.historyWrites, hkeys]
  rfl

theorem readBeside_chains (kind : Kind) (id : ι) :
    Chains s.settings.policy allowed (s.readBeside caller kind id) :=
  .prepare (.currentKeys _ _ _) fun _ _ =>
    (Chains.onConnection (.lookup _ _)).bind fun _ => .quiet (.pure _)

theorem writeBeside_chains (kind : Kind) (id : ι) (properties : List (String × NativeValue))
    (hallowed : ∀ ws, Operation.besideWrites s.settings caller kind id properties = .ok ws →
      ∀ w ∈ ws, allowed w) :
    Chains s.settings.policy allowed (s.writeBeside caller kind id properties) := by
  refine .prepare (.currentKeys _ _ _) fun keys hkeys => s.putAll_chains id keys ?_
  refine hallowed _ ?_
  rw [Operation.besideWrites, hkeys]
  rfl

/-- What a truncation deletes was read before on the same connection. -/
theorem truncateOlderThan_chain (id : ι) (index : Nat) (context : Context)
    (hallowed : ∀ keys, Operation.doomed s.settings caller id index context.connection = .ok keys →
      ∀ w ∈ Write.ofDeleted keys, allowed w) :
    Connection.Chain s.settings.policy allowed context.connection
      (s.truncateOlderThan caller id index context).2.connection := by
  let stream := s.historyEntities caller id s.settings.pageSize
  have hread : Connection.Chain s.settings.policy allowed context.connection _ :=
    collect_chains (stream.bound context.connection.store.size + 1)
      (s.historyEntities_uses caller id s.settings.pageSize) context.connection
  rw [Operation.doomed] at hallowed
  rw [truncateOlderThan, Action.bind_apply]
  simp only [onConnection, Action.onPart]
  rcases hr : collect (stream.bound context.connection.store.size + 1) stream context.connection
    with ⟨e | entities, c'⟩ <;> rw [hr] at hread hallowed
  · exact hread
  · dsimp only
    split
    · have hdelete : Chains s.settings.policy allowed (do
          onConnection (Connection.delete s.settings.policy
            ((afterSnapshot index entities).map (·.key)) (s.label id))
          return ((afterSnapshot index entities).map (·.key)).length) :=
        (Chains.onConnection fun _ => .delete _ _ (hallowed _ rfl) .refl).bind
          fun _ => .quiet (.pure _)
      exact hread.trans (hdelete ⟨c', context.index, context.keys⟩)
    · exact hread

end AggregateStore

/-! ## Operations -/

namespace Operation

theorem pull_chains {α : Type} (count : Option Nat) {stream : ItemStream α}
    (h : stream.source.Uses policy) : Chains policy allowed (pull count stream) := by
  intro s
  cases count with
  | some n => exact ItemStream.take_chain n h s.connection
  | none =>
    exact ItemStream.take_chain (stream.source.bound s.connection.store.size + 1) h s.connection

/-- An operation makes a chain of calls, and its writes are among those planned. -/
theorem perform_chain (op : Operation ι) (settings : HandleSettings) (caller : Caller) (s : Context)
    (hallowed : ∀ ws, op.writes settings caller s.connection = .ok ws → ∀ w ∈ ws, allowed w) :
    Connection.Chain settings.policy allowed s.connection
      (op.perform settings caller s).2.connection := by
  let records : RecordStore ι := ⟨settings⟩
  let aggregates : AggregateStore ι := ⟨settings⟩
  have hanswer {α : Type} {x : Action Context α} (hx : Chains settings.policy allowed x)
      (answer : α → Answer ι) :
      Chains settings.policy allowed (x >>= fun a => pure (answer a)) :=
    hx.bind fun _ => .quiet (.pure _)
  cases op with
  | read id =>
    refine hanswer (.prepare (.currentKeys _ _ _) fun _ _ => ?_) _ s
    exact (Chains.onConnection (.lookup _ _)).bind fun _ => .quiet (.ofOutcome _)
  | readAll ids =>
    refine hanswer (.prepare (.currentKeys _ _ _) fun _ _ => ?_) _ s
    exact (Chains.onConnection (.lookup _ _)).bind fun _ => .quiet (.ofOutcome _)
  | write r =>
    refine hanswer (.prepare (.currentKeys _ _ _) fun keys hkeys =>
      .prepare (.ofOutcome _) fun entity hentity => records.putAll_chains keys _ ?_) _ s
    refine hallowed _ ?_
    rw [writes, hkeys, Outcome.ok_bind, hentity]
    rfl
  | writeAll rs =>
    rw [writes] at hallowed
    refine hanswer (x := records.writeAll caller rs) ?_ _ s
    unfold RecordStore.writeAll
    split
    · exact .quiet (.pure ())
    · next hempty =>
      rw [if_neg hempty] at hallowed
      refine .prepare (.currentKeys _ _ _) fun keys hkeys =>
        .prepare (.ofOutcome _) fun entities hentities => records.putAll_chains keys _ ?_
      refine hallowed _ ?_
      rw [hkeys, Outcome.ok_bind, hentities]
      rfl
  | delete id =>
    refine hanswer (.prepare (.currentKeys _ _ _) fun keys hkeys => ?_) _ s
    refine (Chains.onConnection fun _ => .delete _ _ (hallowed _ ?_) .refl).bind
      fun _ => .quiet (.pure _)
    rw [writes, hkeys]
    rfl
  | indexMatching p count =>
    exact hanswer (pull_chains count (records.indexMatching_uses caller p)) _ s
  | scan q count =>
    obtain ⟨stream, hquiet, huses⟩ := records.readAllRecords_uses caller q
    refine Chains.prepare hquiet (fun stream' hstream => ?_) s
    obtain rfl := Except.ok.inj hstream
    exact hanswer (pull_chains count huses) _
  | writeEntry id r =>
    exact hanswer (aggregates.writeRecords_chains caller id [r] hallowed) _ s
  | writeHistory id h =>
    rw [writes] at hallowed
    refine hanswer (x := aggregates.writeHistory caller id h) ?_ _ s
    unfold AggregateStore.writeHistory
    split
    · exact .quiet (.pure ())
    · next hempty =>
      rw [if_neg hempty] at hallowed
      exact aggregates.writeRecords_chains caller id h.records hallowed
  | historyBackward id batch count =>
    exact hanswer (pull_chains count (aggregates.historyEntities_uses caller id batch)) _ s
  | readHistory id batch =>
    have hread : Connection.Chains settings.policy allowed fun c =>
        AggregateStore.readBack ((aggregates.historyEntities caller id batch).bound c.store.size + 1)
          (aggregates.historyEntities caller id batch) [] c := fun c =>
      AggregateStore.readBack_chains _ (aggregates.historyEntities_uses caller id batch) [] c
    exact hanswer ((Chains.onConnection hread).bind fun _ => .quiet (.pure _)) _ s
  | truncate id index =>
    have hdoomed : ∀ keys, doomed settings caller id index s.connection = .ok keys →
        ∀ w ∈ Write.ofDeleted keys, allowed w := by
      intro keys hkeys
      refine hallowed _ ?_
      rw [writes, hkeys]
      rfl
    have hchain := aggregates.truncateOlderThan_chain caller id index s hdoomed
    rw [perform, Action.bind_apply]
    rcases hr : aggregates.truncateOlderThan caller id index s with ⟨e | n, s'⟩ <;>
      rw [hr] at hchain
    · exact hchain
    · exact hchain
  | readCount id =>
    refine hanswer ((aggregates.readBeside_chains caller _ id).bind fun found => ?_) _ s
    cases found with
    | none => exact .quiet (.pure 0)
    | some e => exact .quiet (.ofOutcome _)
  | writeCount id count => exact hanswer (aggregates.writeBeside_chains caller _ id _ hallowed) _ s
  | readFlags id =>
    exact hanswer ((aggregates.readBeside_chains caller _ id).bind fun _ => .quiet (.pure _)) _ s
  | writeFlags id flags => exact hanswer (aggregates.writeBeside_chains caller _ id _ hallowed) _ s
  | aggregates count => exact hanswer (pull_chains count (aggregates.index_uses caller)) _ s

end Operation

end DocumentStore
