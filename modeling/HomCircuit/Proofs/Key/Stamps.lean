import HomCircuit.Proofs.Key.Slots
import Mathlib

/-!
# HomCircuit.Proofs.Key.Stamps

The order in which the ready entries of a key cache were used. It is written down nowhere: the slots
stand in no order, the clock stamps a slot when it is used, and the entry to drop is searched for
among the stamps.

```
put ready     (id, clock + 1) :: entries without id
insertReady   the same, cut at the capacity
erase         entries without id
```

* `KeyCache.recency` — the ready identities by their stamps;
* `KeyCache.Stamped` — the ready entries with their stamps, latest first, with one lemma for each
  atomic section;
* `KeyCache.Stamped.leastRecent?` — the search ends at the last of them.
-/

namespace HomCircuit

/-- A ready entry with the time of its last use. -/
def KeySlot.stamp? : KeyId × KeySlot → Option (KeyId × Nat)
  | (id, .ready _ used) => some (id, used)
  | (_, .inFlight _) => none

namespace KeyCache

/-- The ready entries of a cache with the times of their last use. -/
def stamps (c : KeyCache) : List (KeyId × Nat) := c.slots.filterMap KeySlot.stamp?

/-- The ready identities of a cache, the one that was used last first. -/
def recency (c : KeyCache) : List KeyId :=
  (c.stamps.mergeSort fun a b => b.2 ≤ a.2).map (·.1)

/-- The ready entries with their stamps, latest first. -/
structure Stamped (c : KeyCache) (entries : List (KeyId × Nat)) : Prop where
  all : c.stamps.Perm entries
  once : (entries.map (·.1)).Nodup
  latest : entries.Pairwise fun a b => b.2 < a.2
  past : ∀ e ∈ entries, e.2 ≤ c.clock

variable {c : KeyCache} {entries : List (KeyId × Nat)} {id : KeyId} {shared : SharedKeys}

theorem size_eq_length_stamps (c : KeyCache) : c.size = c.stamps.length := by
  rw [size, List.countP_eq_length_filter, stamps, List.length_filterMap_eq_countP,
    List.countP_eq_length_filter]
  congr 2
  funext ⟨id, s⟩
  cases s <;> rfl

theorem Stamped.size_eq (h : c.Stamped entries) : c.size = entries.length := by
  rw [size_eq_length_stamps, h.all.length_eq]

/-- No two entries were used at one time. -/
theorem Stamped.eq_of_stamp (h : c.Stamped entries) {a b : KeyId × Nat} (ha : a ∈ entries)
    (hb : b ∈ entries) (same : a.2 = b.2) : a = b := by
  have distinct : (entries.map (·.2)).Nodup := by
    refine List.Pairwise.map _ (fun _ _ => ?_) h.latest
    omega
  exact List.inj_on_of_nodup_map distinct ha hb same

/-- There is only one way to put stamped entries in order. -/
theorem Stamped.recency_eq (h : c.Stamped entries) : c.recency = entries.map (·.1) := by
  have sorted : (c.stamps.mergeSort fun a b => b.2 ≤ a.2).Pairwise fun a b => b.2 ≤ a.2 := by
    have := @List.pairwise_mergeSort _ (fun a b : KeyId × Nat => decide (b.2 ≤ a.2))
      (by simp; omega) (by simp; omega) c.stamps
    simpa using this
  have perm := (List.mergeSort_perm c.stamps fun a b => decide (b.2 ≤ a.2)).trans h.all
  have same : (c.stamps.mergeSort fun a b => b.2 ≤ a.2) = entries := by
    refine perm.eq_of_pairwise (fun a b ha hb ab ba => ?_) sorted (h.latest.imp Nat.le_of_lt)
    exact h.eq_of_stamp (perm.mem_iff.mp ha) hb (Nat.le_antisymm ba ab)
  rw [recency, same]

theorem mem_stamps {used : Nat} :
    (id, used) ∈ c.stamps ↔ ∃ shared, (id, KeySlot.ready shared used) ∈ c.slots := by
  rw [stamps, List.mem_filterMap]
  constructor
  · rintro ⟨⟨k, s⟩, mem, is⟩
    cases s with
    | inFlight flight => contradiction
    | ready shared last =>
        obtain ⟨rfl, rfl⟩ := Prod.mk.inj (Option.some.inj is)
        exact ⟨shared, mem⟩
  · rintro ⟨shared, mem⟩
    exact ⟨_, mem, rfl⟩

/-- The ready identities are those with a stamp. -/
theorem Stamped.contains_iff (h : c.Stamped entries) (distinct : c.Distinct) :
    c.contains id = true ↔ id ∈ entries.map (·.1) := by
  have stamped : id ∈ entries.map (·.1) ↔ ∃ used, (id, used) ∈ c.stamps := by
    simp [h.all.mem_iff]
  simp only [stamped, mem_stamps, ← slot?_eq_some_iff distinct, contains]
  cases found : c.slot? id with
  | none => simp
  | some s => cases s <;> simp [KeySlot.isReady]

/-! ## stamps and atomic sections -/

/-- Some identities lose their ready entries, whatever happens to open flights. -/
theorem Stamped.filter {d : KeyCache} (h : c.Stamped entries) {keep : KeyId × KeySlot → Bool}
    (q : KeyId → Bool) (test : ∀ id shared used, keep (id, .ready shared used) = q id)
    (slots : d.slots = c.slots.filter keep) (clock : d.clock = c.clock) :
    d.Stamped (entries.filter fun e => q e.1) where
  all := by
    have same : d.stamps = c.stamps.filter fun e => q e.1 := by
      rw [stamps, stamps, slots, List.filterMap_filter, List.filter_filterMap]
      congr 1
      funext ⟨id, s⟩
      cases s with
      | ready shared used => cases kept : q id <;> simp [test, kept, KeySlot.stamp?, Option.filter]
      | inFlight flight => simp [KeySlot.stamp?]
    exact same ▸ h.all.filter _
  once := h.once.sublist (List.filter_sublist.map _)
  latest := h.latest.filter _
  past e mem := clock ▸ h.past e (List.mem_of_mem_filter mem)

theorem Stamped.erase (h : c.Stamped entries) (id : KeyId) :
    (c.erase id).Stamped (entries.filter fun e => e.1 ≠ id) :=
  Stamped.filter (d := c.erase id) h (fun k => k ≠ id) (fun _ _ _ => rfl) rfl rfl

/-- Counters play no part. -/
theorem Stamped.count (h : c.Stamped entries) (f : KeyCounters → KeyCounters) :
    (c.count f).Stamped entries :=
  ⟨h.all, h.once, h.latest, h.past⟩

theorem filter_ne_eq_self (new : id ∉ entries.map (·.1)) :
    entries.filter (fun e => e.1 ≠ id) = entries := by
  refine List.filter_eq_self.mpr fun e mem => ?_
  have other : e.1 ≠ id := fun same => new (same ▸ List.mem_map_of_mem mem)
  simpa using other

/-- A flight may be put where nothing is ready. -/
theorem Stamped.putFlight (h : c.Stamped entries) (new : id ∉ entries.map (·.1)) (flight : Nat) :
    (c.put id (.inFlight flight)).Stamped entries := by
  have rest := h.erase id
  rw [filter_ne_eq_self new] at rest
  exact ⟨rest.all, rest.once, rest.latest, rest.past⟩

/-- What is put in place at a new time is the most recent entry. -/
theorem Stamped.putReady (h : c.Stamped entries) (id : KeyId) (shared : SharedKeys) :
    (c.tick.put id (.ready shared c.tick.clock)).Stamped
      ((id, c.clock + 1) :: entries.filter fun e => e.1 ≠ id) := by
  have rest := h.erase id
  refine ⟨rest.all.cons _, ?_, ?_, ?_⟩
  · rw [List.map_cons, List.nodup_cons]
    exact ⟨by simp, rest.once⟩
  · refine List.pairwise_cons.mpr ⟨fun e mem => ?_, rest.latest⟩
    exact Nat.lt_succ_of_le (rest.past e mem)
  · refine List.forall_mem_cons.mpr ⟨le_rfl, fun e mem => ?_⟩
    exact Nat.le_succ_of_le (rest.past e mem)

/-- The search for the entry to drop goes through the stamps. -/
def older (best : Option (KeyId × Nat)) (entry : KeyId × Nat) : Option (KeyId × Nat) :=
  match best with
  | none => some entry
  | some b => if entry.2 < b.2 then some entry else some b

/-- It looks at each entry as its stamp does. -/
theorem stamp?_eq : KeySlot.stamp? = fun (e : KeyId × KeySlot) =>
    match e with
    | (id, s) => match s with
      | .ready _ used => some (id, used)
      | .inFlight _ => none := by
  funext e
  obtain ⟨id, s⟩ := e
  cases s <;> rfl

theorem leastRecent?_eq (c : KeyCache) :
    c.leastRecent? = (c.stamps.foldl older none).map (·.1) := by
  rw [stamps, stamp?_eq]
  rfl

/-- The search ends with an entry that no other one is older than. -/
theorem exists_foldl_older (l : List (KeyId × Nat)) (b : KeyId × Nat) :
    ∃ e ∈ b :: l, l.foldl older (some b) = some e ∧ ∀ x ∈ b :: l, e.2 ≤ x.2 := by
  induction l generalizing b with
  | nil => exact ⟨b, by simp, rfl, by simp⟩
  | cons a l ih =>
      by_cases newer : a.2 < b.2
      · obtain ⟨e, mem, found, least⟩ := ih a
        refine ⟨e, List.mem_cons_of_mem _ mem, ?_, ?_⟩
        · simpa [older, newer] using found
        · have := least a List.mem_cons_self
          exact List.forall_mem_cons.mpr ⟨by omega, least⟩
      · obtain ⟨e, mem, found, least⟩ := ih b
        obtain ⟨first, others⟩ := List.forall_mem_cons.mp least
        refine ⟨e, ?_, ?_, ?_⟩
        · rcases List.mem_cons.mp mem with rfl | mem
          · exact List.mem_cons_self
          · exact List.mem_cons_of_mem _ (List.mem_cons_of_mem _ mem)
        · simpa [older, newer] using found
        · exact List.forall_mem_cons.mpr ⟨first, List.forall_mem_cons.mpr ⟨by omega, others⟩⟩

/-- The entry to drop is the last one. -/
theorem Stamped.leastRecent? {front : List (KeyId × Nat)} {e : KeyId × Nat}
    (h : c.Stamped (front ++ [e])) : c.leastRecent? = some e.1 := by
  have stamped : e ∈ c.stamps := h.all.mem_iff.mpr (by simp)
  rw [leastRecent?_eq]
  cases all : c.stamps with
  | nil => simp [all] at stamped
  | cons b l =>
      obtain ⟨found, mem, search, least⟩ := exists_foldl_older l b
      rw [← all] at mem least
      have last : found = e := by
        rcases List.mem_append.mp (h.all.mem_iff.mp mem) with before | there
        · have later := (List.pairwise_append.mp h.latest).2.2 found before e (by simp)
          exact absurd (least e stamped) (Nat.not_le.mpr later)
        · exact List.mem_singleton.mp there
      rw [List.foldl_cons, older, search, last]
      rfl

/-- A cache over its bound drops what is last in order until the bound holds. -/
theorem Stamped.shrink (h : c.Stamped entries) {fuel : Nat}
    (enough : entries.length ≤ c.capacity + fuel) :
    (c.shrink fuel).Stamped (entries.take c.capacity) ∧
      (c.shrink fuel).capacity = c.capacity ∧
      (c.shrink fuel).counters = { c.counters with
        evictions := c.counters.evictions + (entries.length - c.capacity) } := by
  induction fuel generalizing c entries with
  | zero =>
      have fits : entries.length ≤ c.capacity := enough
      rw [List.take_of_length_le fits, Nat.sub_eq_zero_of_le fits]
      exact ⟨h, rfl, rfl⟩
  | succ fuel ih =>
      unfold KeyCache.shrink
      rw [h.size_eq]
      split
      · next fits =>
          rw [List.take_of_length_le fits, Nat.sub_eq_zero_of_le fits]
          exact ⟨h, rfl, rfl⟩
      · next full =>
          obtain ⟨front, e, rfl⟩ : ∃ front e, entries = front ++ [e] := by
            have : entries ≠ [] := fun none => full (by simp [none])
            exact ⟨_, _, (List.dropLast_append_getLast this).symm⟩
          rw [List.length_append, List.length_singleton] at enough full
          have bound : c.capacity ≤ front.length := by omega
          have last : e.1 ∉ front.map (·.1) := by
            have once := h.once
            rw [List.map_append, List.nodup_append'] at once
            simpa using once.2.2
          have rest : (c.erase e.1).Stamped front := by
            have rest := h.erase e.1
            rw [List.filter_append, filter_ne_eq_self last] at rest
            simpa using rest
          obtain ⟨cut, capacity, counters⟩ :=
            ih (rest.count fun n => { n with evictions := n.evictions + 1 }) (by
              simp only [KeyCache.count, KeyCache.erase]
              omega)
          rw [h.leastRecent?, List.take_append_of_le_length bound]
          refine ⟨cut, capacity, counters.trans ?_⟩
          simp only [KeyCache.count, KeyCache.erase, List.length_append, List.length_singleton]
          congr 1
          omega

/-- A ready entry comes in front, and what exceeds the bound goes from the end. -/
theorem Stamped.insertReady (h : c.Stamped entries) (fits : entries.length ≤ c.capacity)
    (id : KeyId) (shared : SharedKeys) :
    (c.insertReady id shared).Stamped
        (((id, c.clock + 1) :: entries.filter fun e => e.1 ≠ id).take c.capacity) ∧
      (c.insertReady id shared).capacity = c.capacity ∧
      (c.insertReady id shared).counters = { c.counters with
        evictions := c.counters.evictions +
          (((id, c.clock + 1) :: entries.filter fun e => e.1 ≠ id).length - c.capacity) } := by
  refine (h.putReady id shared).shrink ?_
  have := List.length_filter_le (fun e => e.1 ≠ id) entries
  simp only [put, tick, List.length_cons]
  omega

end KeyCache

end HomCircuit
