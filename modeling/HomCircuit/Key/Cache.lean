import HomCircuit.Key.Store

/-!
# HomCircuit.Key.Cache

A bounded cache of key sets. The first caller that misses a key set generates it while later callers
of the same one wait for that flight; ready entries are bounded, and the least recently used one
goes first.

The cache changes in short atomic sections, and a generation runs between two of them:

* `lookup` — hit, wait for an open flight, or open a flight;
* `insertReady` — put a key set in place and drop what exceeds the bound;
* `abandon` — close a flight that failed;
* `evict`, `clear` — drop ready entries.

`getOrCreate`, `importBlob` and `exportBlob` are the calls built from them.
-/

namespace HomCircuit

/-- What a cached key set is found by. -/
structure KeyId where
  name : String
  fingerprint : UInt64
  seed : KeySeed
  deriving DecidableEq, Inhabited

/-- The identity of a partition's keys under a seed. -/
def KeyId.of (p : Partition) (seed : KeySeed) : KeyId := ⟨p.name, p.fingerprint, seed⟩

/-- A key set and the number of its making: two callers share one object exactly when the numbers
agree. -/
structure SharedKeys where
  serial : Nat
  keys : KeySet
  deriving DecidableEq, Inhabited

/-- What the cache holds for a key set. -/
inductive KeySlot
  | ready (shared : SharedKeys) (lastUsed : Nat)
  | inFlight (flight : Nat)
  deriving Inhabited

/-- Whether a slot is ready. -/
def KeySlot.isReady : KeySlot → Bool
  | .ready .. => true
  | .inFlight _ => false

/-- What a caller finds. -/
inductive KeyLookup
  | hit (shared : SharedKeys)
  | wait (flight : Nat)
  | miss (flight : Nat)

/-- Counters of a cache. -/
structure KeyCounters where
  generations : Nat := 0
  hits : Nat := 0
  misses : Nat := 0
  waits : Nat := 0
  evictions : Nat := 0
  deriving DecidableEq, Inhabited

/-- A cache of key sets. -/
structure KeyCache where
  capacity : Nat
  slots : List (KeyId × KeySlot) := []
  clock : Nat := 0
  nextSerial : Nat := 0
  counters : KeyCounters := {}
  deriving Inhabited

namespace KeyCache

/-- An empty cache for `capacity` key sets, at least one. -/
def empty (capacity : Nat) : KeyCache := { capacity := max capacity 1 }

/-! ## views -/

/-- What stands under an identity. -/
def slot? (c : KeyCache) (id : KeyId) : Option KeySlot := c.slots.lookup id

/-- Whether a key set is ready. -/
def contains (c : KeyCache) (id : KeyId) : Bool := (c.slot? id).any KeySlot.isReady

/-- Number of ready entries. -/
def size (c : KeyCache) : Nat := c.slots.countP (·.2.isReady)

/-- The ready entry that was used longest ago. -/
def leastRecent? (c : KeyCache) : Option KeyId :=
  let ready := c.slots.filterMap fun (id, s) =>
    match s with
    | .ready _ used => some (id, used)
    | .inFlight _ => none
  (ready.foldl (fun best entry =>
    match best with
    | none => some entry
    | some b => if entry.2 < b.2 then some entry else some b) none).map (·.1)

/-! ## atomic sections -/

/-- Puts a slot under an identity, in place of what stood there. -/
def put (c : KeyCache) (id : KeyId) (s : KeySlot) : KeyCache :=
  { c with slots := (id, s) :: c.slots.filter (·.1 ≠ id) }

/-- Takes away what stands under an identity. -/
def erase (c : KeyCache) (id : KeyId) : KeyCache :=
  { c with slots := c.slots.filter (·.1 ≠ id) }

/-- Counts something. -/
def count (c : KeyCache) (f : KeyCounters → KeyCounters) : KeyCache :=
  { c with counters := f c.counters }

/-- The clock moves on by one. -/
def tick (c : KeyCache) : KeyCache := { c with clock := c.clock + 1 }

/-- A caller looks for a key set: a hit becomes the most recent entry, and a miss opens a flight. -/
def lookup (c : KeyCache) (id : KeyId) : KeyLookup × KeyCache :=
  let c := c.tick
  match c.slot? id with
  | some (.ready shared _) =>
    (.hit shared,
      (c.put id (.ready shared c.clock)).count fun n => { n with hits := n.hits + 1 })
  | some (.inFlight flight) =>
    (.wait flight, c.count fun n => { n with waits := n.waits + 1 })
  | none =>
    let flight := c.nextSerial
    let c := { c with nextSerial := flight + 1 }
    (.miss flight,
      (c.put id (.inFlight flight)).count fun n => { n with misses := n.misses + 1 })

/-- Drops least recently used entries until the bound holds. -/
def shrink : Nat → KeyCache → KeyCache
  | 0, c => c
  | fuel + 1, c =>
    if c.size ≤ c.capacity then c
    else
      match c.leastRecent? with
      | none => c
      | some id =>
        shrink fuel ((c.erase id).count fun n => { n with evictions := n.evictions + 1 })

/-- A key set becomes the most recent ready entry. -/
def insertReady (c : KeyCache) (id : KeyId) (shared : SharedKeys) : KeyCache :=
  let c := c.tick
  let c := c.put id (.ready shared c.clock)
  shrink c.slots.length c

/-- A flight that failed leaves nothing behind. -/
def abandon (c : KeyCache) (id : KeyId) : KeyCache := c.erase id

/-- Ends a flight with what its generation gave. -/
def settle (c : KeyCache) (id : KeyId) (flight : Nat) (result : Except KeyError KeySet) :
    Except KeyError SharedKeys × KeyCache :=
  let c := c.count fun n => { n with generations := n.generations + 1 }
  match result with
  | .ok keys => (.ok ⟨flight, keys⟩, c.insertReady id ⟨flight, keys⟩)
  | .error e => (.error e, c.abandon id)

/-- Keeps the slots that satisfy a test, and tells how many went. -/
def retain (c : KeyCache) (keep : KeyId → KeySlot → Bool) : Nat × KeyCache :=
  let slots := c.slots.filter fun (id, s) => keep id s
  (c.slots.length - slots.length, { c with slots })

/-- Drops every ready entry of a partition name. -/
def evict (c : KeyCache) (name : String) : Nat × KeyCache :=
  let (removed, c) := c.retain fun id s => id.name ≠ name || !s.isReady
  (removed, c.count fun n => { n with evictions := n.evictions + removed })

/-- Drops every ready entry. -/
def clear (c : KeyCache) : Nat × KeyCache := c.retain fun _ s => !s.isReady

/-! ## calls -/

/-- The key set of a partition and seed, generated on first use. A caller that waits receives what
the open flight generates. -/
def getOrCreate (c : KeyCache) (p : Partition) (seed : KeySeed) :
    Except KeyError SharedKeys × KeyCache :=
  match p.validate with
  | .error e => (.error e, c)
  | .ok () =>
    let id := KeyId.of p seed
    match c.lookup id with
    | (.hit shared, c) => (.ok shared, c)
    | (.wait flight, c) => ((KeySet.generate p seed).map (⟨flight, ·⟩), c)
    | (.miss flight, c) => c.settle id flight (KeySet.generate p seed)

/-- Puts supplied key material in place, whatever was ready before. -/
def importBlob (c : KeyCache) (b : KeyBlob) : Except KeyError SharedKeys × KeyCache :=
  match b.toKeySet with
  | .error e => (.error e, c)
  | .ok keys =>
    let shared : SharedKeys := ⟨c.nextSerial, keys⟩
    (.ok shared, { c with nextSerial := c.nextSerial + 1 }.insertReady
      (KeyId.of keys.partition keys.seed) shared)

/-- The blob of a partition's keys, generated if need be. -/
def exportBlob (c : KeyCache) (p : Partition) (seed : KeySeed) :
    Except KeyError KeyBlob × KeyCache :=
  let (r, c) := c.getOrCreate p seed
  (r.map fun shared => KeyBlob.ofKeySet shared.keys, c)

/-- Imports the blob of a stored file. -/
def importFile (c : KeyCache) (d : BlobStore) (path : String) :
    Except KeyError SharedKeys × KeyCache :=
  match d.load path with
  | .error e => (.error (.blob e), c)
  | .ok b => c.importBlob b

/-- Exports a partition's keys to a file. -/
def exportFile (c : KeyCache) (d : BlobStore) (p : Partition) (seed : KeySeed) (path : String) :
    Except KeyError BlobStore × KeyCache :=
  match c.exportBlob p seed with
  | (.error e, c) => (.error e, c)
  | (.ok b, c) => ((d.save path b).mapError .blob, c)

/-- A summary of the cache with all counters. -/
def describe (c : KeyCache) : String :=
  let n := c.counters
  s!"KeyManager \x7b capacity: {c.capacity}, stats: KeyManagerStats \x7b " ++
  s!"generations: {n.generations}, hits: {n.hits}, misses: {n.misses}, waits: {n.waits}, " ++
  s!"evictions: {n.evictions}, cached: {c.size} \x7d \x7d"

end KeyCache

end HomCircuit
