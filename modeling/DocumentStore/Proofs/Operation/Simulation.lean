import DocumentStore.Proofs.Access.Simulation
import DocumentStore.Proofs.Operation.Basic
set_option autoImplicit false

/-!
# The same operations under two policies

Whatever an operation of a handle does is put together from calls, so that it runs alike under two
policies if the calls do.
-/

namespace DocumentStore

open Context

/-! ## Answers -/

/-- Whether two answers are the same, but for failures among the items of a stream that match. -/
def Answer.Matches {ι : Type} (alike : StorageError → StorageError → Prop) :
    Answer ι → Answer ι → Prop
  | .ids d, .ids d' => d.Matches alike d'
  | .records d, .records d' => d.Matches alike d'
  | .entries d, .entries d' => d.Matches alike d'
  | a, a' => a = a'

theorem Answer.Matches.eq {ι : Type} {a a' : Answer ι} (h : a.Matches Eq a') : a = a' := by
  unfold Answer.Matches at h
  split at h
  · rw [h.eq]
  · rw [h.eq]
  · rw [h.eq]
  · exact h

/-- Whether the connections of two contexts belong together. -/
def Context.Related (related : Connection → Connection → Prop) (s s' : Context) : Prop :=
  related s.connection s'.connection

/-- The settings of a handle that makes its calls under another policy. -/
def HandleSettings.withPolicy (policy : Policy) (settings : HandleSettings) : HandleSettings :=
  { settings with policy }

variable {related : Connection → Connection → Prop} {alike : StorageError → StorageError → Prop}
  {policy policy' : Policy}

/-! ## Around the calls -/

namespace Context

variable {α : Type}

theorem onConnection_matches {same : α → α → Prop} {x x' : Action Connection α}
    (h : Action.Matches related alike same x x') :
    Action.Matches (Related related) alike same (onConnection x) (onConnection x') :=
  .onPart h (fun _ _ hs => hs) fun _ _ _ _ _ ht => ht

theorem Quiet.matches {x x' : Action Context α} {answer : Outcome α} (h : Quiet x answer)
    (h' : Quiet x' answer) (halike : ∀ e, alike e e) :
    Action.Matches (Related related) alike Eq x x' := by
  intro s s' hs
  rw [(h s).1, (h' s').1]
  refine ⟨.refl halike (fun _ => rfl) answer, ?_⟩
  unfold Related
  rw [(h s).2, (h' s').2]
  exact hs

theorem pull_matches (hsim : Connection.Simulation related alike policy policy') (count : Option Nat)
    (stream : ItemStream α) :
    Action.Matches (Related related) alike (Drained.Matches alike)
      (pull count (stream.withPolicy policy)) (pull count (stream.withPolicy policy')) := by
  intro s s' hs
  unfold pull
  cases count with
  | some count =>
    obtain ⟨d, d', rest, t, t', ht, ht', -, hd, hrelated⟩ :=
      ItemStream.take_matches hsim count stream hs
    simp only [ht, ht']
    exact ⟨.ok hd, hrelated⟩
  | none =>
    obtain ⟨d, d', rest, t, t', ht, ht', -, hd, hrelated⟩ := ItemStream.drain_matches hsim stream hs
    simp only [ht, ht']
    exact ⟨.ok hd, hrelated⟩

end Context

/-! ## Streams of stores -/

section Streams

variable {ι : Type} [RecordId ι] (policy) (settings : HandleSettings) (caller : Caller)

namespace RecordStore

omit [RecordId ι] in
theorem scan_withPolicy (space : Namespace) (filters : List ConjunctiveFilter)
    (order : List SortKey) (limit : Option Nat) (keysOnly : Bool) :
    (⟨settings.withPolicy policy⟩ : RecordStore ι).scan space filters order limit keysOnly =
      ((⟨settings⟩ : RecordStore ι).scan space filters order limit keysOnly).withPolicy policy := by
  unfold scan
  match filters with
  | [] => rfl
  | [f] => rfl
  | f :: g :: rest =>
    dsimp only
    split
    · simp only [EntityStream.withPolicy, List.map_map]
      rfl
    · simp only [EntityStream.withPolicy, List.map_map]
      rfl

theorem indexMatching_withPolicy (p : Predicate) :
    (⟨settings.withPolicy policy⟩ : RecordStore ι).indexMatching caller p =
      ((⟨settings⟩ : RecordStore ι).indexMatching caller p).withPolicy policy := by
  have htarget : (⟨settings.withPolicy policy⟩ : RecordStore ι).scanTarget caller p =
      (⟨settings⟩ : RecordStore ι).scanTarget caller p := rfl
  unfold indexMatching
  rw [htarget]
  cases (⟨settings⟩ : RecordStore ι).scanTarget caller p with
  | error e => rfl
  | ok target =>
    dsimp only
    rw [scan_withPolicy]
    rfl

/-- The stream of a query is handed out before the first call, and the calls are all that the policy
is for. -/
theorem readAllRecords_withPolicy (q : RecordQuery ι) :
    ∃ stream : ItemStream (Record ι), ∀ policy,
      Quiet ((⟨settings.withPolicy policy⟩ : RecordStore ι).readAllRecords caller q)
        (.ok (stream.withPolicy policy)) := by
  have htarget (policy : Policy) :
      (⟨settings.withPolicy policy⟩ : RecordStore ι).scanTarget caller q.predicate =
        (⟨settings⟩ : RecordStore ι).scanTarget caller q.predicate := rfl
  unfold readAllRecords
  simp only [htarget]
  cases (⟨settings⟩ : RecordStore ι).scanTarget caller q.predicate with
  | error e => exact ⟨.failing e, fun policy => .pure _⟩
  | ok target =>
    obtain ⟨space, filters⟩ := target
    cases q.ids with
    | none =>
      simp only [scan_withPolicy]
      exact ⟨⟨_, Record.ofEntity⟩, fun policy => .pure _⟩
    | some ids =>
      let label := (⟨settings⟩ : RecordStore ι).label ("ids=" ++ toString ids.length)
      let keys : KeyFactory := ⟨space, settings.kind⟩
      exact ⟨⟨.found settings.policy label (ids.map keys.key) filters q.order q.limit,
        Record.ofEntity⟩, fun _ _ => ⟨rfl, rfl⟩⟩

end RecordStore

namespace AggregateStore

theorem historyEntities_withPolicy (id : ι) (batch : Nat) :
    (⟨settings.withPolicy policy⟩ : AggregateStore ι).historyEntities caller id batch =
      ((⟨settings⟩ : AggregateStore ι).historyEntities caller id batch).withPolicy policy := by
  have hresolver : (settings.withPolicy policy).resolver = settings.resolver := rfl
  unfold historyEntities
  rw [hresolver]
  split
  · rfl
  · cases settings.resolver.current caller.tenant <;> rfl

theorem historyBackward_withPolicy (id : ι) (batch : Nat) :
    (⟨settings.withPolicy policy⟩ : AggregateStore ι).historyBackward caller id batch =
      ((⟨settings⟩ : AggregateStore ι).historyBackward caller id batch).withPolicy policy := by
  rw [historyBackward, historyEntities_withPolicy]
  rfl

theorem index_withPolicy :
    (⟨settings.withPolicy policy⟩ : AggregateStore ι).index caller =
      ((⟨settings⟩ : AggregateStore ι).index caller).withPolicy policy := by
  have hresolver : (settings.withPolicy policy).resolver = settings.resolver := rfl
  unfold index
  rw [hresolver]
  cases settings.resolver.current caller.tenant <;> rfl

end AggregateStore

end Streams

/-! ## Readers of histories -/

namespace AggregateStore

theorem collect_matches (hsim : Connection.Simulation related alike policy policy') (fuel : Nat)
    (stream : EntityStream) :
    Action.Matches related alike Eq (collect fuel (stream.withPolicy policy))
      (collect fuel (stream.withPolicy policy')) := by
  induction fuel generalizing stream with
  | zero => exact .pure rfl
  | succ fuel ih =>
    intro c c' h
    obtain ⟨rest, t, t', ht, ⟨hp, hp'⟩ | ⟨e, hp, hp'⟩ | ⟨e, e', hp, hp', he⟩⟩ :=
      (EntityStream.pull_matches hsim stream h).cases <;> simp only [collect, hp, hp']
    · exact ⟨.ok rfl, ht⟩
    · rcases (ih rest).cases ht with
        ⟨more, _, u, u', hr, hr', rfl, hu⟩ | ⟨e, e', u, u', hr, hr', he, hu⟩ <;> rw [hr, hr']
      · exact ⟨.ok rfl, hu⟩
      · exact ⟨.error he, hu⟩
    · exact ⟨.error he, ht⟩

theorem readBack_matches (hsim : Connection.Simulation related alike policy policy') (fuel : Nat)
    (stream : EntityStream) (events : List Event) :
    Action.Matches related alike Eq (readBack fuel (stream.withPolicy policy) events)
      (readBack fuel (stream.withPolicy policy') events) := by
  induction fuel generalizing stream events with
  | zero => exact .pure rfl
  | succ fuel ih =>
    intro c c' h
    obtain ⟨rest, t, t', ht, ⟨hp, hp'⟩ | ⟨e, hp, hp'⟩ | ⟨e, e', hp, hp', he⟩⟩ :=
      (EntityStream.pull_matches hsim stream h).cases <;> simp only [readBack, hp, hp']
    · exact ⟨.ok rfl, ht⟩
    · split
      · exact ⟨.error (hsim.refl _), ht⟩
      · exact ⟨.ok rfl, ht⟩
      · exact ih rest _ t t' ht
    · exact ⟨.error he, ht⟩

variable {ι : Type} [RecordId ι]

/-- All entities of a history. -/
theorem collectHistory_matches (hsim : Connection.Simulation related alike policy policy')
    (settings : HandleSettings) (caller : Caller) (id : ι) (batch : Nat) :
    let stream (policy : Policy) :=
      (⟨settings.withPolicy policy⟩ : AggregateStore ι).historyEntities caller id batch
    Action.Matches related alike Eq
      (fun c => collect ((stream policy).bound c.store.size + 1) (stream policy) c)
      (fun c => collect ((stream policy').bound c.store.size + 1) (stream policy') c) := by
  intro stream c c' h
  simp only [stream, historyEntities_withPolicy, EntityStream.bound_withPolicy, hsim.size h]
  exact collect_matches hsim _ _ c c' h

/-- The entries of a history up to its latest snapshot. -/
theorem readHistory_matches (hsim : Connection.Simulation related alike policy policy')
    (settings : HandleSettings) (caller : Caller) (id : ι) (batch : Nat) :
    let stream (policy : Policy) :=
      (⟨settings.withPolicy policy⟩ : AggregateStore ι).historyEntities caller id batch
    Action.Matches related alike Eq
      (fun c => readBack ((stream policy).bound c.store.size + 1) (stream policy) [] c)
      (fun c => readBack ((stream policy').bound c.store.size + 1) (stream policy') [] c) := by
  intro stream c c' h
  simp only [stream, historyEntities_withPolicy, EntityStream.bound_withPolicy, hsim.size h]
  exact readBack_matches hsim _ _ [] c c' h

end AggregateStore

/-! ## Operations -/

namespace Operation

variable {ι : Type} [RecordId ι]

/-- An operation has matching answers under two policies whose calls match. -/
theorem perform_matches (hsim : Connection.Simulation related alike policy policy')
    (op : Operation ι) (settings : HandleSettings) (caller : Caller) :
    Action.Matches (Related related) alike (Answer.Matches alike)
      (op.perform (settings.withPolicy policy) caller)
      (op.perform (settings.withPolicy policy') caller) := by
  have hquiet {α : Type} {x : Action Context α} {answer : Outcome α} (h : Quiet x answer) :
      Action.Matches (Related related) alike Eq x x := h.matches h hsim.refl
  have hkeys (kind : Kind) : Action.Matches (Related related) alike Eq
      (currentKeys (settings.withPolicy policy) caller kind)
      (currentKeys (settings.withPolicy policy') caller kind) := hquiet (.currentKeys settings caller kind)
  have hlookup (keys : List Key) (label : String) := onConnection_matches (hsim.lookup keys label)
  have hput (batch : List Entity) (label : String) (space : Namespace) :
      Action.Matches (Related related) alike Eq
        (onConnection (Connection.put policy batch label) >>= fun _ => keepNamespace space)
        (onConnection (Connection.put policy' batch label) >>= fun _ => keepNamespace space) :=
    (onConnection_matches (hsim.put batch label)).andThen fun _ => hquiet (.keepNamespace space)
  have hpull {α : Type} {answer : Drained α → Answer ι} (count : Option Nat) (stream : ItemStream α)
      (hsame : ∀ d d', d.Matches alike d' → (answer d).Matches alike (answer d')) :
      Action.Matches (Related related) alike (Answer.Matches alike)
        (pull count (stream.withPolicy policy) >>= fun d => pure (answer d))
        (pull count (stream.withPolicy policy') >>= fun d => pure (answer d)) :=
    (pull_matches hsim count stream).bind fun d d' hd => .pure (hsame d d' hd)
  cases op with
  | read id =>
    exact ((hkeys settings.kind).andThen fun keys => (hlookup _ _).andThen fun _ =>
      hquiet (.ofOutcome _)).andThen fun _ => .pure rfl
  | readAll ids =>
    exact ((hkeys settings.kind).andThen fun keys => (hlookup _ _).andThen fun _ =>
      hquiet (.ofOutcome _)).andThen fun _ => .pure rfl
  | write r =>
    exact ((hkeys settings.kind).andThen fun keys => (hquiet (.ofOutcome _)).andThen fun _ =>
      hput _ _ _).andThen fun _ => .pure rfl
  | writeAll records =>
    rw [perform, perform, RecordStore.writeAll, RecordStore.writeAll]
    split
    · exact (Action.Matches.pure rfl).andThen fun _ => .pure rfl
    · exact ((hkeys settings.kind).andThen fun keys => (hquiet (.ofOutcome _)).andThen fun _ =>
        hput _ _ _).andThen fun _ => .pure rfl
  | delete id =>
    exact ((hkeys settings.kind).andThen fun keys =>
      (onConnection_matches (hsim.delete _ _)).andThen fun _ => .pure rfl).andThen fun _ => .pure rfl
  | indexMatching p count =>
    rw [perform, perform, RecordStore.indexMatching_withPolicy, RecordStore.indexMatching_withPolicy]
    exact hpull count _ fun _ _ h => h
  | scan q count =>
    obtain ⟨stream, hstream⟩ := RecordStore.readAllRecords_withPolicy settings caller q
    intro s s' hs
    obtain ⟨t, ht, hsame⟩ := (hstream policy).exists_eq s
    obtain ⟨t', ht', hsame'⟩ := (hstream policy').exists_eq s'
    have hrelated : Related related t t' := by
      unfold Related
      rw [hsame, hsame']
      exact hs
    rw [perform, perform, Action.bind_ok ht, Action.bind_ok ht']
    exact @hpull (Record ι) .records count stream (fun _ _ h => h) t t' hrelated
  | writeEntry id r =>
    exact ((hkeys settings.kind).andThen fun keys => hput _ _ _).andThen fun _ => .pure rfl
  | writeHistory id h =>
    rw [perform, perform, AggregateStore.writeHistory, AggregateStore.writeHistory]
    split
    · exact (Action.Matches.pure rfl).andThen fun _ => .pure rfl
    · exact ((hkeys settings.kind).andThen fun keys => hput _ _ _).andThen fun _ => .pure rfl
  | historyBackward id batch count =>
    rw [perform, perform, AggregateStore.historyBackward_withPolicy,
      AggregateStore.historyBackward_withPolicy]
    exact hpull count _ fun _ _ h => h
  | readHistory id batch =>
    exact ((onConnection_matches (AggregateStore.readHistory_matches hsim settings caller id batch)).andThen
      fun _ => .pure rfl).andThen fun _ => .pure rfl
  | truncate id index =>
    refine ((onConnection_matches (AggregateStore.collectHistory_matches hsim settings caller id
      settings.pageSize)).andThen fun entities => ?_).andThen fun _ => .pure rfl
    dsimp only
    split
    · exact (onConnection_matches (hsim.delete _ _)).andThen fun _ => .pure rfl
    · exact .pure rfl
  | readCount id =>
    refine (((hkeys _).andThen fun keys => (hlookup _ _).andThen fun _ => .pure rfl).andThen
      fun found => ?_).andThen fun _ => .pure rfl
    cases found with
    | none => exact .pure rfl
    | some e => exact hquiet (.ofOutcome _)
  | writeCount id count =>
    exact ((hkeys _).andThen fun keys => hput _ _ _).andThen fun _ => .pure rfl
  | readFlags id =>
    exact (((hkeys _).andThen fun keys => (hlookup _ _).andThen fun _ => .pure rfl).andThen
      fun found => .pure rfl).andThen fun _ => .pure rfl
  | writeFlags id flags =>
    exact ((hkeys _).andThen fun keys => hput _ _ _).andThen fun _ => .pure rfl
  | aggregates count =>
    rw [perform, perform, AggregateStore.index_withPolicy, AggregateStore.index_withPolicy]
    exact hpull count _ fun _ _ h => h

end Operation

end DocumentStore
