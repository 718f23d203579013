import HomCircuit.Proofs.Key.Shape
import HomCircuit.Proofs.Key.Stamps

/-!
# HomCircuit.Proofs.Key.Recency

The key cache behaves as a bounded list of identities in the order of their last use, while calls are
made one after the other.

```
request id    id :: ids without id            id is known
              id :: ids                       id is new, and there is room
              id :: ids without its last      id is new, and there is none
evict name    ids of other names
clear         []
```

* `RecentKeys` — the list with its bound, and a tally of what came and what went;
* `RecentKeys.Balanced` — the tally adds up;
* `KeyCache.Follows` — a cache is a list, but for a flight that may be open;
* `KeyCache.Agrees` — a call does to the cache what it does to the list;
* `KeyCache.recency_run` — after any calls.
-/

namespace HomCircuit

/-! ## calls -/

/-- A call of a key manager. -/
inductive KeyCall
  | request (p : Partition) (seed : KeySeed)
  | exportBlob (p : Partition) (seed : KeySeed)
  | importBlob (b : KeyBlob)
  | evict (name : String)
  | clear
  | contains (p : Partition) (seed : KeySeed)
  deriving DecidableEq

namespace KeyCall

/-- Whether the arguments of a call can be used. -/
def check : KeyCall → Except KeyError Unit
  | .request p _ => p.validate
  | .exportBlob p _ => p.validate
  | .importBlob b => b.toKeySet.map fun _ => ()
  | .evict _ => .ok ()
  | .clear => .ok ()
  | .contains .. => .ok ()

/-- Whether a call asks for the keys of a valid partition. -/
def isValidRequest : KeyCall → Bool
  | .request p _ => p.validate.isOk
  | .exportBlob p _ => p.validate.isOk
  | .importBlob _ => false
  | .evict _ => false
  | .clear => false
  | .contains .. => false

/-- A call is made while no other is under way; of its answer only a refusal is kept. -/
def perform (c : KeyCache) : KeyCall → Except KeyError Unit × KeyCache
  | .request p seed => ((c.getOrCreate p seed).1.map fun _ => (), (c.getOrCreate p seed).2)
  | .exportBlob p seed => ((c.exportBlob p seed).1.map fun _ => (), (c.exportBlob p seed).2)
  | .importBlob b => ((c.importBlob b).1.map fun _ => (), (c.importBlob b).2)
  | .evict name => (.ok (), (c.evict name).2)
  | .clear => (.ok (), c.clear.2)
  | .contains .. => (.ok (), c)

end KeyCall

/-- The cache after some calls, one after the other. -/
def KeyCache.run (c : KeyCache) (calls : List KeyCall) : KeyCache :=
  calls.foldl (fun c call => (call.perform c).2) c

/-! ## the reference -/

/-- A bounded list of identities, most recent first, and a tally of all that happened to it. -/
structure RecentKeys where
  bound : Nat
  ids : List KeyId := []
  /-- Requests for an identity that was in the list. -/
  hits : Nat := 0
  /-- Requests for one that was not. -/
  misses : Nat := 0
  /-- Imports of an identity that was not in the list. -/
  imported : Nat := 0
  /-- What went because the list was full. -/
  dropped : Nat := 0
  evicted : Nat := 0
  cleared : Nat := 0
  deriving DecidableEq

namespace RecentKeys

/-- An empty list for `capacity` identities, at least one. -/
def empty (capacity : Nat) : RecentKeys := { bound := max capacity 1 }

/-- An identity moves to the front, or comes in there; a full list drops its last element. -/
def place (r : RecentKeys) (id : KeyId) : RecentKeys :=
  if id ∈ r.ids then { r with ids := id :: r.ids.erase id }
  else if r.ids.length < r.bound then { r with ids := id :: r.ids }
  else { r with ids := id :: r.ids.dropLast, dropped := r.dropped + 1 }

/-- A request for an identity. -/
def request (r : RecentKeys) (id : KeyId) : RecentKeys :=
  if id ∈ r.ids then { r with hits := r.hits + 1 }.place id
  else { r with misses := r.misses + 1 }.place id

/-- An import under an identity. -/
def importKeys (r : RecentKeys) (id : KeyId) : RecentKeys :=
  if id ∈ r.ids then r.place id else { r with imported := r.imported + 1 }.place id

/-- All identities of a name go. -/
def evict (r : RecentKeys) (name : String) : RecentKeys :=
  { r with
    ids := r.ids.filter (·.name ≠ name)
    evicted := r.evicted + r.ids.countP (·.name = name) }

/-- All identities go. -/
def clear (r : RecentKeys) : RecentKeys :=
  { r with ids := [], cleared := r.cleared + r.ids.length }

/-- What a call with usable arguments does. -/
def serve (r : RecentKeys) : KeyCall → RecentKeys
  | .request p seed => r.request (KeyId.of p seed)
  | .exportBlob p seed => r.request (KeyId.of p seed)
  | .importBlob b => r.importKeys (KeyId.of b.partition b.seed)
  | .evict name => r.evict name
  | .clear => r.clear
  | .contains .. => r

/-- What a call does; one that is refused does nothing. -/
def perform (r : RecentKeys) (call : KeyCall) : RecentKeys :=
  match call.check with
  | .error _ => r
  | .ok () => r.serve call

/-- The list after some calls. -/
def run (r : RecentKeys) (calls : List KeyCall) : RecentKeys := calls.foldl perform r

/-! ## what the tally adds up to -/

/-- A list within its bound. -/
structure Bounded (r : RecentKeys) : Prop where
  room : 0 < r.bound
  once : r.ids.Nodup
  fits : r.ids.length ≤ r.bound

/-- Every identity in the list came in by a miss or an import, and all others went. -/
structure Balanced (r : RecentKeys) : Prop extends Bounded r where
  balance : r.ids.length + r.dropped + r.evicted + r.cleared = r.misses + r.imported

variable {r : RecentKeys} {id : KeyId}

theorem balanced_empty (capacity : Nat) : (empty capacity).Balanced where
  room := by
    simp only [empty]
    omega
  once := List.nodup_nil
  fits := Nat.zero_le _
  balance := rfl

/-- Placing is putting in front and cutting at the bound. -/
theorem Bounded.place_eq (h : r.Bounded) (id : KeyId) :
    r.place id = { r with
      ids := (id :: r.ids.erase id).take r.bound
      dropped := r.dropped + ((id :: r.ids.erase id).length - r.bound) } := by
  have room := h.room
  have fits := h.fits
  unfold place
  split
  · next known =>
      have length : (id :: r.ids.erase id).length = r.ids.length := by
        have := List.length_pos_of_mem known
        rw [List.length_cons, List.length_erase_of_mem known]
        omega
      rw [List.take_of_length_le (by omega), length, Nat.sub_eq_zero_of_le fits, Nat.add_zero]
  · next new =>
      rw [List.erase_of_not_mem new]
      split
      · next free =>
          have length : (id :: r.ids).length ≤ r.bound := by simpa using free
          rw [List.take_of_length_le length, Nat.sub_eq_zero_of_le length, Nat.add_zero]
      · next full =>
          have reached : r.ids.length = r.bound := by omega
          obtain ⟨n, bound⟩ : ∃ n, r.bound = n + 1 := ⟨r.bound - 1, by omega⟩
          have cut : r.ids.dropLast = r.ids.take n := by
            rw [List.dropLast_eq_take, reached, bound, Nat.add_sub_cancel]
          have excess : (id :: r.ids).length - r.bound = 1 := by
            rw [List.length_cons]
            omega
          rw [excess, cut, bound, List.take_succ_cons]

theorem Bounded.place (h : r.Bounded) (id : KeyId) : (r.place id).Bounded := by
  rw [h.place_eq]
  refine ⟨h.room, ?_, List.length_take_le _ _⟩
  refine List.Nodup.sublist (List.take_sublist _ _) (List.nodup_cons.mpr ⟨?_, h.once.erase id⟩)
  exact h.once.not_mem_erase

/-- What is new needs a miss or an import of its own; it makes the list longer, or something else
goes. -/
theorem Bounded.balanced_place (h : r.Bounded)
    (balance : r.ids.length + r.dropped + r.evicted + r.cleared + (if id ∈ r.ids then 0 else 1) =
      r.misses + r.imported) : (r.place id).Balanced := by
  have room := h.room
  refine ⟨h.place id, ?_⟩
  unfold RecentKeys.place
  split
  · next known =>
      have := List.length_pos_of_mem known
      simp only [known, if_true, List.length_cons, List.length_erase_of_mem] at balance ⊢
      omega
  · next new =>
      simp only [new, if_false] at balance
      split
      · simp only [List.length_cons]
        omega
      · simp only [List.length_cons, List.length_dropLast]
        omega

theorem Balanced.request (h : r.Balanced) (id : KeyId) : (r.request id).Balanced := by
  have balance := h.balance
  unfold RecentKeys.request
  split
  · next known =>
      refine Bounded.balanced_place (r := { r with hits := r.hits + 1 })
        ⟨h.room, h.once, h.fits⟩ ?_
      simpa [known] using balance
  · next new =>
      refine Bounded.balanced_place (r := { r with misses := r.misses + 1 })
        ⟨h.room, h.once, h.fits⟩ ?_
      simp only [new, if_false]
      omega

theorem Balanced.importKeys (h : r.Balanced) (id : KeyId) : (r.importKeys id).Balanced := by
  have balance := h.balance
  unfold RecentKeys.importKeys
  split
  · next known =>
      refine h.balanced_place ?_
      simpa [known] using balance
  · next new =>
      refine Bounded.balanced_place (r := { r with imported := r.imported + 1 })
        ⟨h.room, h.once, h.fits⟩ ?_
      simp only [new, if_false]
      omega

theorem Balanced.evict (h : r.Balanced) (name : String) : (r.evict name).Balanced where
  room := h.room
  once := h.once.filter _
  fits := (List.length_filter_le _ _).trans h.fits
  balance := by
    have parts : r.ids.length = r.ids.countP (·.name = name) + r.ids.countP (·.name ≠ name) := by
      simpa using List.length_eq_countP_add_countP (l := r.ids) fun id => decide (id.name = name)
    have balance := h.balance
    simp only [RecentKeys.evict, ← List.countP_eq_length_filter]
    omega

theorem Balanced.clear (h : r.Balanced) : r.clear.Balanced where
  room := h.room
  once := List.nodup_nil
  fits := Nat.zero_le _
  balance := by
    have balance := h.balance
    simp only [RecentKeys.clear, List.length_nil]
    omega

theorem Balanced.perform (h : r.Balanced) (call : KeyCall) : (r.perform call).Balanced := by
  unfold RecentKeys.perform
  split
  · exact h
  · cases call with
    | request p seed => exact h.request _
    | exportBlob p seed => exact h.request _
    | importBlob b => exact h.importKeys _
    | evict name => exact h.evict name
    | clear => exact h.clear
    | contains p seed => exact h

/-- The bound is never changed. -/
theorem bound_perform (r : RecentKeys) (call : KeyCall) : (r.perform call).bound = r.bound := by
  have placed (s : RecentKeys) (id : KeyId) : (s.place id).bound = s.bound := by
    unfold place
    split
    · rfl
    · split <;> rfl
  have asked (id : KeyId) : (r.request id).bound = r.bound := by
    unfold request
    split <;> rw [placed]
  have imported (id : KeyId) : (r.importKeys id).bound = r.bound := by
    unfold importKeys
    split <;> rw [placed]
  unfold perform
  split
  · rfl
  · cases call with
    | request p seed => exact asked _
    | exportBlob p seed => exact asked _
    | importBlob b => exact imported _
    | evict name => rfl
    | clear => rfl
    | contains p seed => rfl

theorem bound_run (r : RecentKeys) (calls : List KeyCall) : (r.run calls).bound = r.bound := by
  induction calls generalizing r with
  | nil => rfl
  | cons call calls ih => exact (ih (r.perform call)).trans (r.bound_perform call)

/-! ## requests -/

/-- Placing leaves the tally of requests alone. -/
theorem hits_add_misses_place (r : RecentKeys) (id : KeyId) :
    (r.place id).hits + (r.place id).misses = r.hits + r.misses := by
  unfold place
  split
  · rfl
  · split <;> rfl

theorem hits_add_misses_request (r : RecentKeys) (id : KeyId) :
    (r.request id).hits + (r.request id).misses = r.hits + r.misses + 1 := by
  unfold request
  split <;> rw [hits_add_misses_place] <;> dsimp only <;> omega

theorem hits_add_misses_importKeys (r : RecentKeys) (id : KeyId) :
    (r.importKeys id).hits + (r.importKeys id).misses = r.hits + r.misses := by
  unfold importKeys
  split <;> rw [hits_add_misses_place]

/-- Of all calls, requests for the keys of valid partitions are hits or misses. -/
theorem hits_add_misses_perform (r : RecentKeys) (call : KeyCall) :
    (r.perform call).hits + (r.perform call).misses =
      r.hits + r.misses + if call.isValidRequest then 1 else 0 := by
  have asked (p : Partition) (id : KeyId) :
      (match p.validate with | .error _ => r | .ok () => r.request id).hits +
        (match p.validate with | .error _ => r | .ok () => r.request id).misses =
        r.hits + r.misses + if p.validate.isOk then 1 else 0 := by
    cases p.validate with
    | error err => rfl
    | ok u => exact hits_add_misses_request r id
  unfold perform
  cases call with
  | request p seed => exact asked p _
  | exportBlob p seed => exact asked p _
  | importBlob b =>
      split
      · rfl
      · exact hits_add_misses_importKeys r _
  | evict name => rfl
  | clear => rfl
  | contains p seed => rfl

theorem hits_add_misses_run (r : RecentKeys) (calls : List KeyCall) :
    (r.run calls).hits + (r.run calls).misses =
      r.hits + r.misses + calls.countP KeyCall.isValidRequest := by
  induction calls generalizing r with
  | nil => rfl
  | cons call calls ih =>
      rw [run, List.foldl_cons, ← run, ih, List.countP_cons, hits_add_misses_perform]
      omega

end RecentKeys

namespace KeyCache

variable {c : KeyCache} {entries : List (KeyId × Nat)} {id : KeyId} {shared : SharedKeys}

/-! ## a cache and its list -/

/-- A cache is the list of its ready entries, with the counters of the tally; a flight is open at
most under the pending identity. -/
structure Follows (c : KeyCache) (r : RecentKeys) (pending : Option KeyId := none) : Prop where
  stamped : ∃ entries, c.Stamped entries ∧ entries.map (·.1) = r.ids
  flying : ∃ flights serial, c.Flying flights serial ∧ ∀ k, pending ≠ some k → flights k = none
  capacity : c.capacity = r.bound
  counters : c.counters = {
    generations := r.misses, hits := r.hits, misses := r.misses,
    evictions := r.dropped + r.evicted }

variable {r : RecentKeys} {pending : Option KeyId}

theorem follows_empty (capacity : Nat) : (empty capacity).Follows (RecentKeys.empty capacity) where
  stamped := ⟨[], ⟨.nil, List.nodup_nil, .nil, by simp⟩, rfl⟩
  flying := ⟨fun _ => none, 0, ⟨List.nodup_nil, rfl, rfl⟩, fun _ _ => rfl⟩
  capacity := rfl
  counters := rfl

/-- What is in the list is ready. -/
theorem Follows.contains_iff (h : c.Follows r pending) : c.contains id = true ↔ id ∈ r.ids := by
  obtain ⟨entries, stamped, names⟩ := h.stamped
  obtain ⟨flights, serial, flying, -⟩ := h.flying
  rw [← names]
  exact stamped.contains_iff flying.distinct

/-- Where no flight is pending, an identity is ready or has no slot. -/
theorem Follows.slot_cases (h : c.Follows r) (id : KeyId) :
    (id ∉ r.ids ∧ c.slot? id = none) ∨
      ∃ shared used, id ∈ r.ids ∧ c.slot? id = some (.ready shared used) := by
  obtain ⟨flights, serial, flying, closed⟩ := h.flying
  have none_ : c.flight? id = none := (congrFun flying.open_ id).trans (closed id nofun)
  rw [← h.contains_iff, contains]
  unfold flight? at none_
  cases found : c.slot? id with
  | none => simp
  | some s =>
      cases s with
      | ready shared used => simp [KeySlot.isReady]
      | inFlight flight => simp [found, KeySlot.flight?] at none_

/-- Something is counted in both. -/
theorem Follows.count (h : c.Follows r) {f : KeyCounters → KeyCounters} {s : RecentKeys}
    (ids : s.ids = r.ids) (bound : s.bound = r.bound)
    (counters : f c.counters = {
      generations := s.misses, hits := s.hits, misses := s.misses,
      evictions := s.dropped + s.evicted }) : (c.count f).Follows s := by
  obtain ⟨entries, stamped, names⟩ := h.stamped
  obtain ⟨flights, serial, flying, closed⟩ := h.flying
  exact ⟨⟨entries, stamped.count f, names.trans ids.symm⟩, ⟨flights, serial, flying.count f, closed⟩,
    h.capacity.trans bound.symm, counters⟩

/-- Dropping identities from the entries drops them from the list. -/
theorem map_filter_entries (q : KeyId → Bool) (names : entries.map (·.1) = r.ids) :
    (entries.filter fun e => q e.1).map (·.1) = r.ids.filter q := by
  rw [← names, List.filter_map]
  rfl

theorem map_filter_ne (once : r.ids.Nodup) (names : entries.map (·.1) = r.ids) :
    (entries.filter fun e => e.1 ≠ id).map (·.1) = r.ids.erase id := by
  rw [map_filter_entries (fun k => k ≠ id) names, once.erase_eq_filter]
  refine List.filter_congr fun k _ => ?_
  by_cases same : k = id <;> simp [same]

/-- What is ready under an identity comes to the front when it is used again. -/
theorem Follows.putReady (h : c.Follows r) (sound : r.Bounded) (known : id ∈ r.ids)
    (shared : SharedKeys) :
    (c.tick.put id (.ready shared c.tick.clock)).Follows (r.place id) := by
  obtain ⟨entries, stamped, names⟩ := h.stamped
  obtain ⟨flights, serial, flying, closed⟩ := h.flying
  rw [RecentKeys.place, if_pos known]
  refine ⟨⟨_, stamped.putReady id shared, ?_⟩, ?_, h.capacity, h.counters⟩
  · rw [List.map_cons, map_filter_ne sound.once names]
  · refine ⟨_, _, flying.tick.put id _, fun k other => ?_⟩
    rw [Function.update_apply]
    split
    · rfl
    · exact closed k other

/-- A new ready entry takes its place in the list, and its flight is over. -/
theorem Follows.insertReady (h : c.Follows r pending) (sound : r.Bounded)
    (mine : ∀ k, pending = some k → k = id) (shared : SharedKeys) :
    (c.insertReady id shared).Follows (r.place id) := by
  obtain ⟨entries, stamped, names⟩ := h.stamped
  obtain ⟨flights, serial, flying, closed⟩ := h.flying
  have fits : entries.length ≤ c.capacity := by
    rw [h.capacity, ← List.length_map (·.1), names]
    exact sound.fits
  have others : (entries.filter fun e => e.1 ≠ id).map (·.1) = r.ids.erase id :=
    map_filter_ne sound.once names
  have count := congrArg List.length others
  rw [List.length_map] at count
  obtain ⟨cut, bound, counters⟩ := stamped.insertReady fits id shared
  rw [sound.place_eq]
  refine ⟨⟨_, cut, ?_⟩, ⟨_, _, flying.insertReady, fun k _ => ?_⟩, bound.trans h.capacity, ?_⟩
  · rw [List.map_take, List.map_cons, others, h.capacity]
  · rw [Function.update_apply]
    split
    · rfl
    · next other => exact closed k fun same => other (mine k same)
  · rw [counters, h.counters, h.capacity, List.length_cons, count, List.length_cons,
      Nat.add_right_comm]

/-! ## a cache and its list: calls -/

section Calls

variable {p : Partition} {seed : KeySeed}

/-- A miss is counted while its flight is pending. -/
theorem Follows.missed (h : c.Follows r) (new : id ∉ r.ids) :
    (c.missed id).Follows { r with misses := r.misses + 1 } (some id) := by
  obtain ⟨entries, stamped, names⟩ := h.stamped
  obtain ⟨flights, serial, flying, closed⟩ := h.flying
  have later : { c.tick with nextSerial := c.nextSerial + 1 }.Stamped entries :=
    ⟨stamped.all, stamped.once, stamped.latest, fun e mem => Nat.le_succ_of_le (stamped.past e mem)⟩
  have next : { c.tick with nextSerial := c.nextSerial + 1 }.Flying flights (c.nextSerial + 1) :=
    ⟨flying.distinct, flying.open_, rfl⟩
  refine ⟨⟨entries, ((later.putFlight (names ▸ new) _).count _).count _, names⟩,
    ⟨_, _, ((next.put id _).count _).count _, fun k other => ?_⟩, h.capacity, ?_⟩
  · have elsewhere : k ≠ id := fun same => other (congrArg some same.symm)
    rw [Function.update_of_ne elsewhere]
    exact closed k nofun
  · simp only [KeyCache.missed, KeyCache.count, put, tick, h.counters]

theorem Follows.request (h : c.Follows r) (sound : r.Bounded) (valid : p.validate = .ok ()) :
    ((c.getOrCreate p seed).1.map fun _ => ()) = .ok () ∧
      (c.getOrCreate p seed).2.Follows (r.request (KeyId.of p seed)) := by
  unfold RecentKeys.request
  rcases h.slot_cases (KeyId.of p seed) with ⟨new, nothing⟩ | ⟨shared, used, known, found⟩
  · rw [getOrCreate_eq_of_none valid nothing, if_neg new]
    refine ⟨rfl, (h.missed new).insertReady ⟨sound.room, sound.once, sound.fits⟩ ?_ _⟩
    exact fun k same => (Option.some.inj same).symm
  · rw [getOrCreate_eq_of_ready valid found, if_pos known]
    have counted : (c.count fun n => { n with hits := n.hits + 1 }).Follows
        { r with hits := r.hits + 1 } := h.count rfl rfl (by simp only [h.counters])
    exact ⟨rfl, counted.putReady ⟨sound.room, sound.once, sound.fits⟩ known shared⟩

/-- An import takes the place in front, whatever was ready before. -/
theorem Follows.importBlob {b : KeyBlob} {keys : KeySet} (h : c.Follows r) (sound : r.Bounded)
    (read : b.toKeySet = .ok keys) :
    ((c.importBlob b).1.map fun _ => ()) = .ok () ∧
      (c.importBlob b).2.Follows (r.importKeys (KeyId.of b.partition b.seed)) := by
  have id : KeyId.of keys.partition keys.seed = KeyId.of b.partition b.seed := by
    rw [(KeySet.isOf_of_ofKeyBytes read).partition, KeySet.seed_of_ofKeyBytes read]
  -- The tally of imports plays no part in what the cache follows.
  have numbered (n : Nat) :
      { c with nextSerial := c.nextSerial + 1 }.Follows { r with imported := n } := by
    obtain ⟨entries, stamped, names⟩ := h.stamped
    obtain ⟨flights, serial, flying, closed⟩ := h.flying
    exact ⟨⟨entries, ⟨stamped.all, stamped.once, stamped.latest, stamped.past⟩, names⟩,
      ⟨flights, _, ⟨flying.distinct, flying.open_, rfl⟩, closed⟩, h.capacity, h.counters⟩
  have bounded (n : Nat) : { r with imported := n }.Bounded := ⟨sound.room, sound.once, sound.fits⟩
  simp only [KeyCache.importBlob, read, id]
  refine ⟨rfl, ?_⟩
  unfold RecentKeys.importKeys
  split
  · exact (numbered r.imported).insertReady (bounded _) nofun _
  · exact (numbered (r.imported + 1)).insertReady (bounded _) nofun _

/-- How many entries go is told by the list as well. -/
theorem Stamped.fst_retain (h : c.Stamped entries) (names : entries.map (·.1) = r.ids)
    {keep : KeyId → KeySlot → Bool} {q : KeyId → Bool}
    (test : ∀ id shared used, keep id (.ready shared used) = q id)
    (flights_kept : ∀ id flight, keep id (.inFlight flight) = true) :
    (c.retain keep).1 = r.ids.countP fun id => !q id := by
  have gone : c.slots.countP (fun e => !keep e.1 e.2) = c.stamps.countP fun e => !q e.1 := by
    rw [stamps, List.countP_filterMap]
    refine List.countP_congr fun e _ => ?_
    obtain ⟨id, s⟩ := e
    cases s with
    | ready shared used => simp [test, KeySlot.stamp?]
    | inFlight flight => simp [flights_kept, KeySlot.stamp?]
  have parts := List.length_eq_countP_add_countP (l := c.slots) fun e => keep e.1 e.2
  rw [← names, List.countP_map, ← h.all.countP_eq]
  simp only [Bool.not_eq_true, Bool.decide_eq_false] at parts
  simp only [KeyCache.retain, ← List.countP_eq_length_filter]
  exact (Nat.sub_eq_of_eq_add' parts).trans gone

/-- Ready entries go whose identity fails a test; open flights play no part. -/
theorem Follows.retain (h : c.Follows r) (keep : KeyId → KeySlot → Bool) (q : KeyId → Bool)
    (test : ∀ id shared used, keep id (.ready shared used) = q id)
    (flights_kept : ∀ id flight, keep id (.inFlight flight) = true) :
    (c.retain keep).2.Follows { r with ids := r.ids.filter q } ∧
      (c.retain keep).1 = r.ids.countP fun id => !q id := by
  obtain ⟨entries, stamped, names⟩ := h.stamped
  obtain ⟨flights, serial, flying, closed⟩ := h.flying
  have kept : (c.retain keep).2.Stamped (entries.filter fun e => q e.1) :=
    Stamped.filter (d := (c.retain keep).2) stamped q test rfl rfl
  refine ⟨?_, stamped.fst_retain names test flights_kept⟩
  exact ⟨⟨_, kept, map_filter_entries q names⟩,
    ⟨flights, serial, flying.retain flights_kept, closed⟩, h.capacity, h.counters⟩

theorem Follows.evict (h : c.Follows r) (name : String) :
    (c.evict name).2.Follows (r.evict name) := by
  obtain ⟨kept, gone⟩ := h.retain (fun id s => id.name ≠ name || !s.isReady)
    (fun id => id.name ≠ name) (by simp [KeySlot.isReady]) (by simp [KeySlot.isReady])
  have sections : (c.evict name).2 =
      (c.retain fun id s => id.name ≠ name || !s.isReady).2.count fun n =>
        { n with evictions := n.evictions + r.ids.countP fun id => !decide (id.name ≠ name) } := by
    rw [← gone]
    rfl
  rw [sections]
  refine kept.count rfl rfl ?_
  rw [kept.counters]
  simp [RecentKeys.evict, Nat.add_assoc]

theorem Follows.clear (h : c.Follows r) : c.clear.2.Follows r.clear := by
  obtain ⟨kept, -⟩ := h.retain (fun _ s => !s.isReady) (fun _ => false)
    (by simp [KeySlot.isReady]) (by simp [KeySlot.isReady])
  rw [List.filter_false] at kept
  exact ⟨kept.stamped, kept.flying, kept.capacity, kept.counters⟩

/-- An export does to the cache what a request does. -/
theorem perform_exportBlob (c : KeyCache) (p : Partition) (seed : KeySeed) :
    (KeyCall.exportBlob p seed).perform c = (KeyCall.request p seed).perform c := by
  simp only [KeyCall.perform, exportBlob]
  cases (c.getOrCreate p seed).1 <;> rfl

/-- A call does to the cache what it does to the list. It is refused for a fault of its arguments
alone, and then nothing happens. -/
structure Agrees (c : KeyCache) (r : RecentKeys) (call : KeyCall) : Prop where
  answer : (call.perform c).1 = call.check
  follows : (call.perform c).2.Follows (r.perform call)
  refused : ∀ err, call.check = .error err → (call.perform c).2 = c

theorem Agrees.of_error {call : KeyCall} {err : KeyError} (h : c.Follows r)
    (fault : call.check = .error err) (same : call.perform c = (.error err, c)) :
    c.Agrees r call where
  answer := by rw [same, fault]
  follows := by simpa only [same, RecentKeys.perform, fault] using h
  refused _ _ := by rw [same]

theorem Agrees.of_ok {call : KeyCall} (usable : call.check = .ok ())
    (answer : (call.perform c).1 = .ok ()) (follows : (call.perform c).2.Follows (r.serve call)) :
    c.Agrees r call where
  answer := answer.trans usable.symm
  follows := by simpa only [RecentKeys.perform, usable] using follows
  refused err fault := by simp [usable] at fault

theorem Follows.agrees_request (h : c.Follows r) (sound : r.Bounded) :
    c.Agrees r (.request p seed) := by
  cases usable : p.validate with
  | error err => exact .of_error h usable (by simp [KeyCall.perform, getOrCreate, usable, Except.map])
  | ok u =>
      obtain ⟨answer, follows⟩ := h.request sound usable
      exact .of_ok usable answer follows

theorem Follows.agrees_importBlob {b : KeyBlob} (h : c.Follows r) (sound : r.Bounded) :
    c.Agrees r (.importBlob b) := by
  cases read : b.toKeySet with
  | error err =>
      have fault : (KeyCall.importBlob b).check = .error err := by
        simp [KeyCall.check, read, Except.map]
      exact .of_error h fault (by simp [KeyCall.perform, KeyCache.importBlob, read, Except.map])
  | ok keys =>
      obtain ⟨answer, follows⟩ := h.importBlob sound read
      exact .of_ok (by simp [KeyCall.check, read, Except.map]) answer follows

theorem Follows.agrees (h : c.Follows r) (sound : r.Bounded) (call : KeyCall) :
    c.Agrees r call := by
  cases call with
  | request p seed => exact h.agrees_request sound
  | exportBlob p seed =>
      have same := perform_exportBlob c p seed
      have ⟨answer, follows, refused⟩ : c.Agrees r (.request p seed) := h.agrees_request sound
      exact ⟨same ▸ answer, same ▸ follows, same ▸ refused⟩
  | importBlob b => exact h.agrees_importBlob sound
  | evict name => exact ⟨rfl, h.evict name, nofun⟩
  | clear => exact ⟨rfl, h.clear, nofun⟩
  | contains p seed => exact ⟨rfl, h, nofun⟩

end Calls

/-- After any calls, the cache is the list. -/
theorem Follows.run (h : c.Follows r) (sound : r.Balanced) (calls : List KeyCall) :
    (c.run calls).Follows (r.run calls) ∧ (r.run calls).Balanced := by
  induction calls generalizing c r with
  | nil => exact ⟨h, sound⟩
  | cons call calls ih => exact ih (h.agrees sound.toBounded call).follows (sound.perform call)

end KeyCache

/-- The ready entries of a cache after any calls, one after the other, are those of the list, in its
order, and its counters are the tally. Calls that are refused change nothing. -/
theorem KeyCache.recency_run (capacity : Nat) (calls : List KeyCall) :
    let c := (KeyCache.empty capacity).run calls
    let r := (RecentKeys.empty capacity).run calls
    (c.recency = r.ids ∧ r.ids.Nodup ∧ r.ids.length ≤ max capacity 1 ∧ c.size = r.ids.length ∧
      ∀ id, c.contains id = true ↔ id ∈ r.ids) ∧
    (∀ call : KeyCall, (call.perform c).1 = call.check ∧
      ∀ err, call.check = .error err → (call.perform c).2 = c) ∧
    c.counters = {
      generations := r.misses, hits := r.hits, misses := r.misses,
      evictions := r.dropped + r.evicted } ∧
    c.counters.hits + c.counters.misses = calls.countP KeyCall.isValidRequest ∧
    c.size + c.counters.evictions + r.cleared = c.counters.misses + r.imported := by
  intro c r
  obtain ⟨follows, sound⟩ : c.Follows r ∧ r.Balanced :=
    (follows_empty capacity).run (RecentKeys.balanced_empty capacity) calls
  obtain ⟨entries, stamped, names⟩ := follows.stamped
  have size : c.size = r.ids.length := by rw [stamped.size_eq, ← names, List.length_map]
  have bound : r.bound = max capacity 1 := RecentKeys.bound_run _ calls
  refine ⟨⟨?_, sound.once, bound ▸ sound.fits, size, fun id => follows.contains_iff⟩, ?_,
    follows.counters, ?_, ?_⟩
  · rw [stamped.recency_eq, names]
  · intro call
    have agrees := follows.agrees sound.toBounded call
    exact ⟨agrees.answer, agrees.refused⟩
  · rw [follows.counters]
    exact (RecentKeys.hits_add_misses_run _ calls).trans (Nat.zero_add _)
  · have balance := sound.balance
    rw [size, follows.counters]
    dsimp only
    omega

end HomCircuit
