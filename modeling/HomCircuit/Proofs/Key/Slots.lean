import HomCircuit.Key.Cache
import Mathlib.Logic.Function.Basic

/-!
# HomCircuit.Proofs.Key.Slots

What the atomic sections of the key cache do to its slots, and to the open flights among them.

```
lookup       opens a flight where nothing stands, else keeps all flights
settle       closes the flight under its identity
insertReady  closes whatever flight stands under its identity
evict clear  keep all flights
```

* `KeyCache.flight?` — the flight that is open under an identity;
* `KeyCache.Flying` — the open flights and the next serial of a cache in which no identity stands
  twice, with one lemma for each section;
* `KeyCache.getOrCreate_eq_of_ready`, `KeyCache.getOrCreate_eq_of_none` — a request where no flight
  is open.
-/

namespace HomCircuit

/-- The flight of a slot. -/
def KeySlot.flight? : KeySlot → Option Nat
  | .ready .. => none
  | .inFlight flight => some flight

namespace KeyCache

/-- Every identity has one slot at most. -/
def Distinct (c : KeyCache) : Prop := (c.slots.map (·.1)).Nodup

/-- The flight that is open under an identity. -/
def flight? (c : KeyCache) (id : KeyId) : Option Nat := (c.slot? id).bind KeySlot.flight?

variable {c : KeyCache} {id : KeyId}

/-! ## slots by identity -/

theorem lookup_filter_key {α β : Type} [BEq α] [LawfulBEq α] (p : α → Bool) (k : α)
    (l : List (α × β)) : (l.filter fun e => p e.1).lookup k = if p k then l.lookup k else none := by
  induction l with
  | nil => simp
  | cons e l ih =>
      obtain ⟨id, s⟩ := e
      rw [List.filter_cons]
      by_cases same : k = id
      · subst same
        cases kept : p k <;> simp [kept, ih]
      · have other : (k == id) = false := beq_eq_false_iff_ne.mpr same
        cases kept : p id <;> simp [List.lookup_cons, other, ih]

theorem slot?_erase (k : KeyId) : (c.erase id).slot? k = if k = id then none else c.slot? k := by
  have h := lookup_filter_key (fun e => decide (e ≠ id)) k c.slots
  by_cases same : k = id
  · simpa [slot?, erase, same] using h
  · simpa [slot?, erase, same] using h

theorem slot?_put {s : KeySlot} (k : KeyId) :
    (c.put id s).slot? k = if k = id then some s else c.slot? k := by
  have h : (c.erase id).slot? k = _ := slot?_erase k
  by_cases same : k = id
  · simp [slot?, put, same]
  · have other : (k == id) = false := beq_eq_false_iff_ne.mpr same
    rw [if_neg same] at h ⊢
    rw [← h]
    simp [slot?, put, erase, List.lookup_cons, other]

theorem mem_of_slot? {s : KeySlot} (h : c.slot? id = some s) : (id, s) ∈ c.slots := by
  obtain ⟨front, back, split, -⟩ := List.lookup_eq_some_iff.mp h
  rw [split]
  simp

theorem lookup_eq_some_iff_mem {α β : Type} [BEq α] [LawfulBEq α] {l : List (α × β)}
    (h : (l.map (·.1)).Nodup) {k : α} {s : β} : l.lookup k = some s ↔ (k, s) ∈ l := by
  induction l with
  | nil => simp
  | cons e l ih =>
      obtain ⟨key, t⟩ := e
      rw [List.map_cons, List.nodup_cons] at h
      by_cases same : k = key
      · subst same
        have once : (k, s) ∉ l := fun mem => h.1 (List.mem_map.mpr ⟨_, mem, rfl⟩)
        simp [once, eq_comm]
      · have other : (k == key) = false := beq_eq_false_iff_ne.mpr same
        rw [List.lookup_cons, other, List.mem_cons]
        simpa [same] using ih h.2

/-- Where no identity stands twice, the slots are the entries. -/
theorem slot?_eq_some_iff (h : c.Distinct) {s : KeySlot} :
    c.slot? id = some s ↔ (id, s) ∈ c.slots :=
  lookup_eq_some_iff_mem h

/-! ## open flights -/

theorem flight?_eq_some_iff {flight : Nat} :
    c.flight? id = some flight ↔ c.slot? id = some (.inFlight flight) := by
  unfold flight?
  cases c.slot? id with
  | none => simp
  | some s => cases s <;> simp [KeySlot.flight?]

/-- A cache in which no identity stands twice, with its open flights and its next serial. -/
structure Flying (c : KeyCache) (flights : KeyId → Option Nat) (serial : Nat) : Prop where
  distinct : c.Distinct
  open_ : c.flight? = flights
  next : c.nextSerial = serial

variable {flights : KeyId → Option Nat} {serial flight : Nat} {shared : SharedKeys}

/-- Where no flight is open, closing changes nothing. -/
theorem update_none (h : flights id = none) : Function.update flights id none = flights := by
  rw [← h, Function.update_eq_self]

theorem Flying.erase (h : c.Flying flights serial) (id : KeyId) :
    (c.erase id).Flying (Function.update flights id none) serial where
  distinct := h.distinct.sublist (List.filter_sublist.map _)
  open_ := by
    funext k
    rw [← h.open_, Function.update_apply, flight?, slot?_erase]
    split <;> rfl
  next := h.next

theorem Flying.put (h : c.Flying flights serial) (id : KeyId) (s : KeySlot) :
    (c.put id s).Flying (Function.update flights id s.flight?) serial where
  distinct := by
    have rest : (c.erase id).Distinct := (h.erase id).distinct
    unfold Distinct KeyCache.put
    rw [List.map_cons, List.nodup_cons]
    refine ⟨fun mem => ?_, rest⟩
    obtain ⟨e, mem, same⟩ := List.mem_map.mp mem
    simpa [same] using (List.mem_filter.mp mem).2
  open_ := by
    funext k
    rw [← h.open_, Function.update_apply, flight?, slot?_put]
    split <;> rfl
  next := h.next

/-- Counters and the clock play no part. -/
theorem Flying.count (h : c.Flying flights serial) (f : KeyCounters → KeyCounters) :
    (c.count f).Flying flights serial :=
  ⟨h.distinct, h.open_, h.next⟩

theorem Flying.tick (h : c.Flying flights serial) : c.tick.Flying flights serial :=
  ⟨h.distinct, h.open_, h.next⟩

/-! ## least recent entries -/

/-- A fold that keeps its candidate or takes the next element chooses among them. -/
theorem eq_or_mem_of_foldl {α : Type} {f : Option α → α → Option α}
    (choice : ∀ best e, f best e = best ∨ f best e = some e) {l : List α} {best : Option α} {e : α}
    (found : l.foldl f best = some e) : best = some e ∨ e ∈ l := by
  induction l generalizing best with
  | nil => exact .inl found
  | cons a l ih =>
      rcases ih found with kept | mem
      · rcases choice best a with same | taken
        · rw [same] at kept
          exact .inl kept
        · rw [taken] at kept
          obtain rfl := Option.some.inj kept
          exact .inr List.mem_cons_self
      · exact .inr (List.mem_cons_of_mem _ mem)

/-- The entry that was used longest ago is a ready one. -/
theorem exists_of_leastRecent? (h : c.leastRecent? = some id) :
    ∃ shared used, (id, KeySlot.ready shared used) ∈ c.slots := by
  obtain ⟨e, found, rfl⟩ := Option.map_eq_some_iff.mp h
  have ready := eq_or_mem_of_foldl (fun best entry => ?_) found
  · obtain ⟨⟨k, s⟩, mem, same⟩ := List.mem_filterMap.mp (ready.resolve_left nofun)
    cases s with
    | inFlight flight => contradiction
    | ready shared used =>
        obtain rfl := Option.some.inj same
        exact ⟨shared, used, mem⟩
  · cases best with
    | none => exact .inr rfl
    | some b =>
        by_cases older : entry.2 < b.2
        · exact .inr (if_pos older)
        · exact .inl (if_neg older)

/-- Only ready entries go when the bound is exceeded. -/
theorem Flying.shrink (h : c.Flying flights serial) (fuel : Nat) :
    (c.shrink fuel).Flying flights serial := by
  induction fuel generalizing c with
  | zero => exact h
  | succ fuel ih =>
      unfold KeyCache.shrink
      split
      · exact h
      · split
        · exact h
        · next id least =>
            obtain ⟨shared, used, mem⟩ := exists_of_leastRecent? least
            have closed : flights id = none := by
              rw [← h.open_, flight?, (slot?_eq_some_iff h.distinct).mpr mem]
              rfl
            have rest := h.erase id
            rw [update_none closed] at rest
            exact ih (rest.count _)

/-! ## sections -/

/-- A ready entry is put in place of whatever stood there, an open flight included. -/
theorem Flying.insertReady (h : c.Flying flights serial) :
    (c.insertReady id shared).Flying (Function.update flights id none) serial :=
  (h.tick.put id _).shrink _

theorem Flying.settle (h : c.Flying flights serial) (id : KeyId) (flight : Nat)
    (result : Except KeyError KeySet) :
    (c.settle id flight result).2.Flying (Function.update flights id none) serial := by
  cases result with
  | ok keys => exact (h.count _).insertReady
  | error e => exact (h.count _).erase id

/-- Dropping entries other than open flights. -/
theorem Flying.retain (h : c.Flying flights serial) {keep : KeyId → KeySlot → Bool}
    (flights_kept : ∀ k flight, keep k (.inFlight flight) = true) :
    (c.retain keep).2.Flying flights serial := by
  have distinct : (c.retain keep).2.Distinct := h.distinct.sublist (List.filter_sublist.map _)
  refine ⟨distinct, ?_, h.next⟩
  rw [← h.open_]
  funext k
  refine Option.ext fun flight => ?_
  rw [flight?_eq_some_iff, flight?_eq_some_iff, slot?_eq_some_iff h.distinct,
    slot?_eq_some_iff distinct]
  simp [KeyCache.retain, flights_kept]

theorem Flying.evict (h : c.Flying flights serial) (name : String) :
    (c.evict name).2.Flying flights serial := by
  have kept : (c.retain fun id s => id.name ≠ name || !s.isReady).2.Flying flights serial := by
    refine h.retain fun k flight => ?_
    simp [KeySlot.isReady]
  exact ⟨kept.distinct, kept.open_, kept.next⟩

theorem Flying.clear (h : c.Flying flights serial) : c.clear.2.Flying flights serial :=
  h.retain fun _ _ => rfl

/-- Nothing but open flights stands in a cache that was cleared. -/
theorem isReady_of_clear {s : KeySlot} (there : c.clear.2.slot? id = some s) :
    s.isReady = false := by
  have mem := mem_of_slot? there
  simpa using (List.mem_filter.mp mem).2

/-- A lookup hits, joins the flight that is open, or opens one where nothing stands. -/
theorem Flying.lookup (h : c.Flying flights serial) (id : KeyId) :
    (∃ shared used c', c.lookup id = (.hit shared, c') ∧ c.slot? id = some (.ready shared used) ∧
      c'.Flying flights serial) ∨
    (∃ flight c', c.lookup id = (.wait flight, c') ∧ flights id = some flight ∧
      c'.Flying flights serial) ∨
    (∃ c', c.lookup id = (.miss serial, c') ∧ flights id = none ∧
      c'.Flying (Function.update flights id (some serial)) (serial + 1)) := by
  have same : c.tick.slot? id = c.slot? id := rfl
  have there : flights id = (c.slot? id).bind KeySlot.flight? := by
    rw [← h.open_]
    rfl
  unfold KeyCache.lookup
  cases found : c.slot? id with
  | none =>
      rw [found] at there
      simp only [same, found]
      rw [show c.tick.nextSerial = serial from h.next]
      have opened : { c.tick with nextSerial := serial + 1 }.Flying flights (serial + 1) :=
        ⟨h.distinct, h.open_, rfl⟩
      have put := opened.put id (.inFlight serial)
      exact .inr (.inr ⟨_, rfl, there, put.count _⟩)
  | some s =>
      rw [found] at there
      simp only [same, found]
      cases s with
      | ready shared used =>
          have put := h.tick.put id (.ready shared c.tick.clock)
          rw [KeySlot.flight?, update_none there] at put
          exact .inl ⟨shared, used, _, rfl, rfl, put.count _⟩
      | inFlight flight =>
          exact .inr (.inl ⟨flight, _, rfl, there, h.tick.count _⟩)

/-- An import is refused, or puts its keys in place. -/
theorem Flying.importBlob (h : c.Flying flights serial) (b : KeyBlob) :
    (∃ e, b.toKeySet = .error e ∧ c.importBlob b = (.error e, c)) ∨
    (∃ keys, b.toKeySet = .ok keys ∧ (c.importBlob b).2.Flying
      (Function.update flights (KeyId.of keys.partition keys.seed) none) (serial + 1)) := by
  unfold KeyCache.importBlob
  cases read : b.toKeySet with
  | error e => exact .inl ⟨e, rfl, rfl⟩
  | ok keys =>
      refine .inr ⟨keys, rfl, ?_⟩
      have opened : { c with nextSerial := c.nextSerial + 1 }.Flying flights (serial + 1) := by
        refine ⟨h.distinct, h.open_, ?_⟩
        rw [h.next]
      exact opened.insertReady

/-! ## requests -/

variable {p : Partition} {seed : KeySeed} {used : Nat}

/-- A request for what is ready stamps it. -/
theorem getOrCreate_eq_of_ready (valid : p.validate = .ok ())
    (found : c.slot? (KeyId.of p seed) = some (.ready shared used)) :
    c.getOrCreate p seed = (.ok shared,
      (c.tick.put (KeyId.of p seed) (.ready shared c.tick.clock)).count
        fun n => { n with hits := n.hits + 1 }) := by
  have found' : c.tick.slot? (KeyId.of p seed) = some (.ready shared used) := found
  simp only [getOrCreate, valid, lookup, found']

/-- The cache of a request that missed, when its generation ends. -/
def missed (c : KeyCache) (id : KeyId) : KeyCache :=
  (({ c.tick with nextSerial := c.nextSerial + 1 }.put id (.inFlight c.nextSerial)).count
    fun n => { n with misses := n.misses + 1 }).count
    fun n => { n with generations := n.generations + 1 }

/-- A request for what is not there generates it. -/
theorem getOrCreate_eq_of_none (valid : p.validate = .ok ())
    (nothing : c.slot? (KeyId.of p seed) = none) :
    c.getOrCreate p seed = (.ok ⟨c.nextSerial, KeySet.ofSeed p seed⟩,
      (c.missed (KeyId.of p seed)).insertReady (KeyId.of p seed)
        ⟨c.nextSerial, KeySet.ofSeed p seed⟩) := by
  have nothing' : c.tick.slot? (KeyId.of p seed) = none := nothing
  have generated : KeySet.generate p seed = .ok (KeySet.ofSeed p seed) := by
    simp [KeySet.generate, valid]
  simp only [getOrCreate, valid, lookup, nothing', generated, settle]
  rfl

end KeyCache

end HomCircuit
