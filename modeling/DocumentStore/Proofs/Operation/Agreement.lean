import DocumentStore.Proofs.Access.Lockstep
import DocumentStore.Proofs.Operation.Chains
set_option autoImplicit false

/-!
# Operations look at their caller's namespace alone

On connections that agree on the namespace of a caller, every operation that runs on its behalf has
the same answer, and they agree again when it is done.  The index of namespaces and the cache of key
factories are not compared: what an operation answers does not depend on them.
-/

namespace DocumentStore

open DocumentStore.Action (Respects)

variable {visible : Entity → Prop}

/-! ## Contexts -/

/-- Whether the connections of two contexts agree. -/
def Context.Agree (visible : Entity → Prop) (s s' : Context) : Prop :=
  s.connection.Agree visible s'.connection

namespace Context

variable {α β : Type}

theorem onConnection_respects {x : Action Connection α}
    (hx : Respects (Connection.Agree visible) x) : Respects (Agree visible) (onConnection x) :=
  .onPart hx (fun _ _ h => h) fun _ _ _ _ _ h => h

theorem Quiet.respects {x : Action Context α} {answer : Outcome α} (h : Quiet x answer) :
    Respects (Agree visible) x := by
  intro s s' hagree
  refine ⟨(h s).1.trans (h s').1.symm, ?_⟩
  unfold Agree
  rw [(h s).2, (h s').2]
  exact hagree

/-- What comes after an action with a known answer is known to come after that answer. -/
theorem Quiet.bind_respects {x : Action Context α} {f : α → Action Context β} {answer : Outcome α}
    (hx : Quiet x answer) (hf : ∀ a, answer = .ok a → Respects (Agree visible) (f a)) :
    Respects (Agree visible) (x >>= f) := by
  intro s s' hagree
  obtain ⟨t, ht, hsame⟩ := hx.exists_eq s
  obtain ⟨t', ht', hsame'⟩ := hx.exists_eq s'
  have hnext : Agree visible t t' := by
    unfold Agree
    rw [hsame, hsame']
    exact hagree
  rw [Action.bind_apply, Action.bind_apply, ht, ht']
  cases answer with
  | error e => exact ⟨rfl, hnext⟩
  | ok a => exact hf a rfl t t' hnext

theorem pull_respects {policy : Policy} (count : Option Nat) {stream : ItemStream α}
    (huses : stream.source.Uses policy) (hwithin : stream.source.Within visible) :
    Respects (Agree visible) (pull count stream) := by
  intro s s' h
  unfold pull
  cases count with
  | some n =>
    obtain ⟨d, rest, t, t', ht, ht', hagree⟩ :=
      ItemStream.take_alike huses hwithin h (.inl (Eq.refl n))
    simp only [ht, ht']
    exact ⟨rfl, hagree⟩
  | none =>
    obtain ⟨d, rest, t, t', ht, ht', hagree⟩ := ItemStream.drain_alike huses hwithin h
    simp only [ht, ht']
    exact ⟨rfl, hagree⟩

end Context

open Context

/-- Keys made for a caller are in its namespace. -/
theorem HandleSettings.keysOf_eq_ok {settings : HandleSettings} {caller : Caller} {kind : Kind}
    {keys : KeyFactory} (h : settings.keysOf caller kind = .ok keys) :
    settings.resolver.current caller.tenant = .ok keys.space := by
  obtain ⟨space, hspace, h⟩ := Outcome.bind_eq_ok h
  cases h
  exact hspace

section Operations

variable {ι : Type} [RecordId ι] {caller : Caller}

/-! ## Records -/

namespace RecordStore

variable (s : RecordStore ι)
  (hvisible : ∀ space, s.settings.resolver.current caller.tenant = .ok space → space.Within visible)

omit [RecordId ι] in
theorem scan_within {space : Namespace} (hspace : space.Within visible) (filters : List ConjunctiveFilter)
    (order : List SortKey) (limit : Option Nat) (keysOnly : Bool) :
    (s.scan space filters order limit keysOnly).Within visible := by
  have hwalks : ∀ fs : List ConjunctiveFilter,
      ∀ w ∈ fs.map fun f => Walk.start s.settings.policy
        (s.scanQuery space order limit keysOnly (some f)) s.settings.pageSize,
        w.query.Within visible := by
    intro fs w hw
    obtain ⟨f, -, rfl⟩ := List.mem_map.mp hw
    exact Namespace.Within.query hspace
  unfold scan
  match filters with
  | [] => exact Namespace.Within.query hspace
  | [f] => exact Namespace.Within.query hspace
  | f :: g :: rest =>
    dsimp only
    split
    · exact hwalks (f :: g :: rest)
    · exact hwalks (f :: g :: rest)

omit [RecordId ι] in
theorem scanTarget_eq_ok {p : Predicate} {space : Namespace} {filters : List ConjunctiveFilter}
    (h : s.scanTarget caller p = .ok (space, filters)) :
    s.settings.resolver.current caller.tenant = .ok space := by
  obtain ⟨space', hspace, h⟩ := Outcome.bind_eq_ok h
  obtain ⟨filters', -, h⟩ := Outcome.bind_eq_ok h
  cases h
  exact hspace

section Within

include hvisible

theorem indexMatching_within (p : Predicate) :
    (s.indexMatching caller p).source.Within visible := by
  unfold indexMatching
  cases htarget : s.scanTarget caller p with
  | error e => exact trivial
  | ok target => exact s.scan_within (hvisible _ (s.scanTarget_eq_ok htarget)) ..

theorem readAllRecords_within {q : RecordQuery ι} {context : Context} {stream : ItemStream (Record ι)}
    (h : (s.readAllRecords caller q context).1 = .ok stream) : stream.source.Within visible := by
  unfold readAllRecords at h
  cases htarget : s.scanTarget caller q.predicate with
  | error e =>
    rw [htarget] at h
    cases h
    exact trivial
  | ok target =>
    obtain ⟨space, filters⟩ := target
    have hspace := hvisible space (s.scanTarget_eq_ok htarget)
    rw [htarget] at h
    cases hids : q.ids with
    | none =>
      simp only [hids] at h
      cases h
      exact s.scan_within hspace ..
    | some ids =>
      simp only [hids] at h
      cases h
      intro k hk
      obtain ⟨id, -, rfl⟩ := List.mem_map.mp hk
      exact Namespace.Within.key hspace

end Within

omit [RecordId ι] in
theorem putAll_respects (keys : KeyFactory) (batch : List Entity) (what : String) :
    Respects (Context.Agree visible) (s.putAll keys batch what) :=
  (onConnection_respects (Connection.put_respects _ _ batch)).bind
    fun _ => (Quiet.keepNamespace keys.space).respects

end RecordStore

/-! ## Histories -/

namespace AggregateStore

section Readers

variable {stream : EntityStream} {policy : Policy} {c c' : Connection}

theorem collect_alike {fuel fuel' : Nat} (huses : stream.Uses policy)
    (hwithin : stream.Within visible) (h : c.Agree visible c')
    (hfuel : stream.items c.store < fuel) (hfuel' : stream.items c'.store < fuel') :
    Alike (Connection.Agree visible) (collect fuel stream c) (collect fuel' stream c') := by
  induction fuel generalizing fuel' stream c c' with
  | zero => exact absurd hfuel (Nat.not_lt_zero _)
  | succ fuel ih =>
    cases fuel' with
    | zero => exact absurd hfuel' (Nat.not_lt_zero _)
    | succ fuel' =>
      obtain ⟨item, rest, t, t', hp, hp', ht, huses', hwithin', hless⟩ :=
        EntityStream.pull_lockstep huses hwithin h
      unfold collect
      rw [hp, hp']
      cases item with
      | none => exact ⟨rfl, ht⟩
      | some item =>
        cases item with
        | error e => exact ⟨rfl, ht⟩
        | ok entity =>
          obtain ⟨hless, hless'⟩ := hless (Option.some_ne_none _)
          obtain ⟨r, u, u', hr, hr', hu⟩ := (ih huses' hwithin' ht
            (Nat.lt_of_lt_of_le hless (Nat.le_of_lt_succ hfuel))
            (Nat.lt_of_lt_of_le hless' (Nat.le_of_lt_succ hfuel'))).exists_eq
          dsimp only
          rw [hr, hr']
          cases r with
          | error e => exact ⟨rfl, hu⟩
          | ok more => exact ⟨rfl, hu⟩

theorem readBack_alike {fuel fuel' : Nat} (huses : stream.Uses policy)
    (hwithin : stream.Within visible) (events : List Event) (h : c.Agree visible c')
    (hfuel : stream.items c.store < fuel) (hfuel' : stream.items c'.store < fuel') :
    Alike (Connection.Agree visible) (readBack fuel stream events c)
      (readBack fuel' stream events c') := by
  induction fuel generalizing fuel' stream events c c' with
  | zero => exact absurd hfuel (Nat.not_lt_zero _)
  | succ fuel ih =>
    cases fuel' with
    | zero => exact absurd hfuel' (Nat.not_lt_zero _)
    | succ fuel' =>
      obtain ⟨item, rest, t, t', hp, hp', ht, huses', hwithin', hless⟩ :=
        EntityStream.pull_lockstep huses hwithin h
      unfold readBack
      rw [hp, hp']
      cases item with
      | none => exact ⟨rfl, ht⟩
      | some item =>
        cases item with
        | error e => exact ⟨rfl, ht⟩
        | ok entity =>
          obtain ⟨hless, hless'⟩ := hless (Option.some_ne_none _)
          dsimp only
          split
          · exact ⟨rfl, ht⟩
          · exact ⟨rfl, ht⟩
          · exact ih huses' hwithin' _ ht (Nat.lt_of_lt_of_le hless (Nat.le_of_lt_succ hfuel))
              (Nat.lt_of_lt_of_le hless' (Nat.le_of_lt_succ hfuel'))

end Readers

variable (s : AggregateStore ι)

theorem putAll_respects (id : ι) (keys : KeyFactory) (batch : List Entity) :
    Respects (Context.Agree visible) (s.putAll id keys batch) :=
  (onConnection_respects (Connection.put_respects _ _ batch)).bind
    fun _ => (Quiet.keepNamespace keys.space).respects

theorem writeRecords_respects (id : ι) (records : List HistoryRecord) :
    Respects (Context.Agree visible) (s.writeRecords caller id records) :=
  (Quiet.currentKeys _ _ _).bind_respects fun keys _ => s.putAll_respects id keys _

theorem writeBeside_respects (kind : Kind) (id : ι) (properties : List (String × NativeValue)) :
    Respects (Context.Agree visible) (s.writeBeside caller kind id properties) :=
  (Quiet.currentKeys _ _ _).bind_respects fun keys _ => s.putAll_respects id keys _

theorem historyEntities_within {id : ι} {batch : Nat}
    (hvisible : ∀ space, s.settings.resolver.current caller.tenant = .ok space →
      (s.historyQuery space id).Within visible) :
    (s.historyEntities caller id batch).Within visible := by
  unfold historyEntities
  split
  · exact trivial
  · split
    · exact trivial
    · next space hspace => exact hvisible space hspace

/-- A history is read alike if its entities are visible. -/
theorem readHistory_respects {id : ι} {batch : Nat}
    (hwithin : (s.historyEntities caller id batch).Within visible) :
    Respects (Context.Agree visible) (s.readHistory caller id batch) := by
  refine (onConnection_respects fun c c' h => ?_).bind fun _ => (Quiet.pure _).respects
  exact readBack_alike (s.historyEntities_uses caller id batch) hwithin [] h
    (Nat.lt_succ_of_le (EntityStream.items_le ..)) (Nat.lt_succ_of_le (EntityStream.items_le ..))

/-- A value beside a history is read alike if it is visible. -/
theorem readBeside_respects {kind : Kind} {id : ι}
    (hvisible : ∀ keys, s.settings.keysOf caller kind = .ok keys → (keys.key id).Within visible) :
    Respects (Context.Agree visible) (s.readBeside caller kind id) := by
  refine (Quiet.currentKeys _ _ _).bind_respects fun keys hkeys => ?_
  refine (onConnection_respects (Connection.lookup_respects _ _ ?_)).bind
    fun _ => (Quiet.pure _).respects
  exact List.forall_mem_singleton.mpr (hvisible keys hkeys)

theorem readCount_respects {id : ι} (hvisible : ∀ keys,
      s.settings.keysOf caller s.countKind = .ok keys → (keys.key id).Within visible) :
    Respects (Context.Agree visible) (s.readCount caller id) := by
  refine (s.readBeside_respects hvisible).bind fun found => ?_
  cases found with
  | none => exact (Quiet.pure 0).respects
  | some e => exact (Quiet.ofOutcome _).respects

theorem readFlags_respects {id : ι} (hvisible : ∀ keys,
      s.settings.keysOf caller s.flagsKind = .ok keys → (keys.key id).Within visible) :
    Respects (Context.Agree visible) (s.readFlags caller id) :=
  (s.readBeside_respects hvisible).bind fun _ => (Quiet.pure _).respects

section Visible

variable (hvisible : ∀ space, s.settings.resolver.current caller.tenant = .ok space →
  space.Within visible)

include hvisible

theorem index_within : (s.index caller).source.Within visible := by
  unfold index
  split
  · exact trivial
  · next space hspace =>
    intro w hw
    obtain rfl := List.mem_singleton.mp hw
    exact Namespace.Within.query (hvisible space hspace)

theorem truncateOlderThan_respects (id : ι) (index : Nat) :
    Respects (Context.Agree visible) (s.truncateOlderThan caller id index) := by
  have hcollect : Respects (Connection.Agree visible) fun c =>
      collect ((s.historyEntities caller id s.settings.pageSize).bound c.store.size + 1)
        (s.historyEntities caller id s.settings.pageSize) c := fun c c' h =>
    collect_alike (s.historyEntities_uses caller id _)
      (s.historyEntities_within fun space hspace => Namespace.Within.query (hvisible space hspace)) h
      (Nat.lt_succ_of_le (EntityStream.items_le ..)) (Nat.lt_succ_of_le (EntityStream.items_le ..))
  refine (onConnection_respects hcollect).bind fun entities => ?_
  dsimp only
  split
  · exact (onConnection_respects (Connection.delete_respects _ _ _)).bind
      fun _ => (Quiet.pure _).respects
  · exact (Quiet.pure _).respects

end Visible

end AggregateStore

/-! ## Operations -/

/-- Every operation runs alike on contexts that agree on the namespace of its caller. -/
theorem Operation.perform_respects (op : Operation ι) (settings : HandleSettings)
    (hvisible : ∀ space, settings.resolver.current caller.tenant = .ok space →
      space.Within visible) :
    Respects (Context.Agree visible) (op.perform settings caller) := by
  let records : RecordStore ι := ⟨settings⟩
  let aggregates : AggregateStore ι := ⟨settings⟩
  have hanswer {α : Type} {x : Action Context α} (hx : Respects (Context.Agree visible) x)
      (answer : α → Answer ι) :
      Respects (Context.Agree visible) (x >>= fun a => pure (answer a)) :=
    hx.bind fun _ => (Quiet.pure _).respects
  have hlookup (ids : List ι) (keys : KeyFactory)
      (hkeys : settings.keysOf caller settings.kind = .ok keys) :
      ∀ k ∈ ids.map keys.key, k.Within visible := by
    intro k hk
    obtain ⟨id, -, rfl⟩ := List.mem_map.mp hk
    exact Namespace.Within.key (hvisible _ (HandleSettings.keysOf_eq_ok hkeys))
  have hhistory (id : ι) (space : Namespace) (hspace : settings.resolver.current caller.tenant = .ok space) :
      (aggregates.historyQuery space id).Within visible :=
    Namespace.Within.query (hvisible space hspace)
  have hbeside (id : ι) (kind : Kind) (keys : KeyFactory)
      (hkeys : settings.keysOf caller kind = .ok keys) : (keys.key id).Within visible :=
    Namespace.Within.key (hvisible _ (HandleSettings.keysOf_eq_ok hkeys))
  cases op with
  | read id =>
    refine hanswer ((Quiet.currentKeys _ _ _).bind_respects fun keys hkeys => ?_) _
    exact (onConnection_respects (Connection.lookup_respects _ _ (hlookup [id] keys hkeys))).bind
      fun _ => (Quiet.ofOutcome _).respects
  | readAll ids =>
    refine hanswer ((Quiet.currentKeys _ _ _).bind_respects fun keys hkeys => ?_) _
    exact (onConnection_respects (Connection.lookup_respects _ _ (hlookup ids keys hkeys))).bind
      fun _ => (Quiet.ofOutcome _).respects
  | write r =>
    exact hanswer ((Quiet.currentKeys _ _ _).bind_respects fun keys _ =>
      (Quiet.ofOutcome _).bind_respects fun entity _ => records.putAll_respects keys _ _) _
  | writeAll rs =>
    refine hanswer (x := records.writeAll caller rs) ?_ _
    unfold RecordStore.writeAll
    split
    · exact (Quiet.pure ()).respects
    · exact (Quiet.currentKeys _ _ _).bind_respects fun keys _ =>
        (Quiet.ofOutcome _).bind_respects fun entities _ => records.putAll_respects keys _ _
  | delete id =>
    exact hanswer ((Quiet.currentKeys _ _ _).bind_respects fun keys _ =>
      (onConnection_respects (Connection.delete_respects _ _ _)).bind
        fun _ => (Quiet.pure _).respects) _
  | indexMatching p count =>
    exact hanswer (pull_respects count (records.indexMatching_uses caller p)
      (records.indexMatching_within hvisible p)) _
  | scan q count =>
    obtain ⟨stream, hquiet, huses⟩ := records.readAllRecords_uses caller q
    intro s s' hs
    have hwithin := records.readAllRecords_within hvisible (hquiet s).1
    refine hquiet.bind_respects (fun stream' hstream => ?_) s s' hs
    obtain rfl := Except.ok.inj hstream
    exact hanswer (pull_respects count huses hwithin) _
  | writeEntry id r => exact hanswer (aggregates.writeRecords_respects id [r]) _
  | writeHistory id h =>
    refine hanswer (x := aggregates.writeHistory caller id h) ?_ _
    unfold AggregateStore.writeHistory
    split
    · exact (Quiet.pure ()).respects
    · exact aggregates.writeRecords_respects id h.records
  | historyBackward id batch count =>
    exact hanswer (pull_respects count (aggregates.historyEntities_uses caller id batch)
      (aggregates.historyEntities_within (hhistory id))) _
  | readHistory id batch =>
    exact hanswer (aggregates.readHistory_respects (aggregates.historyEntities_within (hhistory id))) _
  | truncate id index => exact hanswer (aggregates.truncateOlderThan_respects hvisible id index) _
  | readCount id => exact hanswer (aggregates.readCount_respects (hbeside id _)) _
  | writeCount id count => exact hanswer (aggregates.writeBeside_respects _ id _) _
  | readFlags id => exact hanswer (aggregates.readFlags_respects (hbeside id _)) _
  | writeFlags id flags => exact hanswer (aggregates.writeBeside_respects _ id _) _
  | aggregates count =>
    exact hanswer (pull_respects count (aggregates.index_uses caller)
      (aggregates.index_within hvisible)) _

end Operations

end DocumentStore
