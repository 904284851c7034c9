import DocumentStore.Access.Walk
set_option autoImplicit false

/-!
# Streams of entities

A stream gives its items one by one and does nothing before the first is pulled.  Several walks are
joined either lazily, one after the other with repeated entities left out, or, where an order or a
limit needs all of them, by collecting, sorting and cutting.
-/

namespace DocumentStore

/-- What tells entities apart when repetitions are left out. -/
inductive Mark where
  | key (k : Key)
  | text (s : String)
  deriving DecidableEq, Repr, Inhabited

/-- How repetitions are recognised. -/
inductive Sieve where
  /-- By the key of the entity. -/
  | byKey
  /-- By a string property; entities without it are left out. -/
  | byProperty (property : String)
  deriving DecidableEq, Repr, Inhabited

/-- The mark of an entity. -/
def Sieve.mark? : Sieve → Entity → Option Mark
  | .byKey, e => some (.key e.key)
  | .byProperty property, e => (e.get? property).bind fun v => v.string?.map Mark.text

/-- Entities in the order of sort keys, and at most a limit of them. -/
def arrange (order : List SortKey) (limit : Option Nat) (found : List Entity) : List Entity :=
  let sorted := if order.isEmpty then found else Sorted.stable (SortKey.compareAll order) found
  match limit with
  | some limit => sorted.take limit
  | none => sorted

/-- The first entity of each key. -/
def firstOfKey (seen : List Key) : List Entity → List Entity
  | [] => []
  | e :: rest =>
    if e.key ∈ seen then firstOfKey seen rest else e :: firstOfKey (e.key :: seen) rest

/-- The state of a stream of entities. -/
inductive EntityStream where
  /-- No item, or none any more. -/
  | ended
  /-- One failure. -/
  | failing (e : StorageError)
  /-- The results of one query. -/
  | walk (w : Walk)
  /-- The results of several queries, one after another, repetitions left out. -/
  | sifted (sieve : Sieve) (seen : List Mark) (walks : List Walk)
  /-- The results of several queries, to be collected and arranged. -/
  | merged (walks : List Walk) (order : List SortKey) (limit : Option Nat)
  /-- The entities of given keys that a filter holds of, to be looked up and arranged. -/
  | found (policy : Policy) (label : String) (keys : List Key) (filters : List ConjunctiveFilter)
      (order : List SortKey) (limit : Option Nat)
  /-- Entities that are at hand. -/
  | ready (items : List Entity)
  deriving DecidableEq

namespace EntityStream

instance : Inhabited EntityStream := ⟨.ended⟩

/-- The next entity of those at hand. -/
def pullReady : List Entity → Pulled EntityStream
  | [] => ⟨none, .ended⟩
  | e :: rest => ⟨some (.ok e), .ready rest⟩

/-- The next entity not seen before, from walks one after another.  A failure does not end them. -/
def pullSifted (sieve : Sieve) : Nat → List Mark → List Walk → Connection →
    Pulled EntityStream × Connection
  | 0, _, _, c => (⟨none, .ended⟩, c)
  | _ + 1, _, [], c => (⟨none, .ended⟩, c)
  | fuel + 1, seen, w :: walks, c =>
    match w.pull c with
    | (⟨none, _⟩, c) => pullSifted sieve fuel seen walks c
    | (⟨some (.error e), w⟩, c) => (⟨some (.error e), .sifted sieve seen (w :: walks)⟩, c)
    | (⟨some (.ok e), w⟩, c) =>
      match sieve.mark? e with
      | none => pullSifted sieve fuel seen (w :: walks) c
      | some mark =>
        if mark ∈ seen then pullSifted sieve fuel seen (w :: walks) c
        else (⟨some (.ok e), .sifted sieve (mark :: seen) (w :: walks)⟩, c)

/-- A bound for the number of pulls that walks take to end. -/
def walksBound (size : Nat) : List Walk → Nat
  | [] => 0
  | w :: rest => w.bound size + 2 + walksBound size rest

/-- The entities of walks, one walk after another, unless there is a failure. -/
def collectWalks : List Walk → Action Connection (List Entity)
  | [] => pure []
  | w :: rest => do
    let first ← w.collect
    let more ← collectWalks rest
    return first ++ more

/-- The collected entities of walks, each once, arranged. -/
def mergeWalks (walks : List Walk) (order : List SortKey) (limit : Option Nat) :
    Action Connection (List Entity) := do
  let found ← collectWalks walks
  return arrange order limit (firstOfKey [] found)

/-- The looked-up entities that a filter holds of, arranged; without filters all of them. -/
def lookUp (policy : Policy) (label : String) (keys : List Key) (filters : List ConjunctiveFilter)
    (order : List SortKey) (limit : Option Nat) : Action Connection (List Entity) := do
  let found ← Connection.lookup policy keys label
  let matched := (found.filterMap id).filter fun e => filters.isEmpty || filters.any (·.holds e)
  return arrange order limit matched

/-- The first item of a stream that has to collect its items first. -/
def pullCollected (x : Action Connection (List Entity)) (c : Connection) :
    Pulled EntityStream × Connection :=
  match x c with
  | (.ok items, c) => (pullReady items, c)
  | (.error e, c) => (⟨some (.error e), .ended⟩, c)

/-- The next item of a stream. -/
def pull (s : EntityStream) (c : Connection) : Pulled EntityStream × Connection :=
  match s with
  | .ended => (⟨none, .ended⟩, c)
  | .failing e => (⟨some (.error e), .ended⟩, c)
  | .walk w =>
    match w.pull c with
    | (⟨none, _⟩, c) => (⟨none, .ended⟩, c)
    | (⟨some item, w⟩, c) => (⟨some item, .walk w⟩, c)
  | .sifted sieve seen walks =>
    pullSifted sieve (walksBound c.store.size walks + 1) seen walks c
  | .merged walks order limit => pullCollected (mergeWalks walks order limit) c
  | .found policy label keys filters order limit =>
    pullCollected (lookUp policy label keys filters order limit) c
  | .ready items => (pullReady items, c)

/-- A bound for the number of items still to come from a store of `size` documents. -/
def bound (size : Nat) : EntityStream → Nat
  | .ended => 0
  | .failing _ => 1
  | .walk w => w.bound size + 1
  | .sifted _ _ walks => walksBound size walks
  | .merged walks _ _ => walksBound size walks + 1
  | .found _ _ keys _ _ _ => keys.length + 1
  | .ready items => items.length

end EntityStream

/-- A stream whose entities are read as values. -/
structure ItemStream (α : Type) where
  source : EntityStream
  read : Entity → Outcome α

/-- What came out of a stream, and whether its end was seen. -/
structure Drained (α : Type) where
  items : List (Outcome α)
  ended : Bool

namespace ItemStream

variable {α β : Type}

/-- A stream of one failure. -/
def failing (e : StorageError) : ItemStream α := ⟨.failing e, fun _ => .error e⟩

/-- The stream of values computed from the values of a stream. -/
def map (f : α → β) (s : ItemStream α) : ItemStream β := ⟨s.source, fun e => (s.read e).map f⟩

/-- At most `count` items of a stream, and what is left of it. -/
def take : Nat → ItemStream α → Connection → Drained α × ItemStream α × Connection
  | 0, s, c => (⟨[], false⟩, s, c)
  | count + 1, s, c =>
    match s.source.pull c with
    | (⟨none, rest⟩, c) => (⟨[], true⟩, { s with source := rest }, c)
    | (⟨some item, rest⟩, c) =>
      match take count { s with source := rest } c with
      | (d, s, c) => (⟨item.bind s.read :: d.items, d.ended⟩, s, c)

/-- Every item of a stream. -/
def drain (s : ItemStream α) (c : Connection) : Drained α × ItemStream α × Connection :=
  s.take (s.source.bound c.store.size + 1) c

end ItemStream

end DocumentStore
