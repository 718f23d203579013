import Mathlib
import HomCircuit.Arena

/-!
# HomCircuit.Proofs.Arena

The operations of an arena seen through two views: the buffer of a slot, `Arena.get?`, and the reads
still owed to it, `Arena.owed`. Beside them, what each operation does to the counters.

```
store     fills a slot that is owed reads     release   one read less, the last one empties the slot
take      one read less, empties the slot     clear     empties every slot
```
-/

namespace HomCircuit.Arena

variable {α : Type}

/-- How many reads are still owed to a slot. -/
def owed (a : Arena α) (slot : Nat) : Nat := (a.slots[slot]?).elim 0 (·.remaining)

/-! ## an empty arena -/

theorem size_ofCounts (counts : List Nat) : (ofCounts counts : Arena α).size = counts.length := by
  simp [ofCounts, size]

theorem owed_ofCounts (counts : List Nat) (slot : Nat) :
    (ofCounts counts : Arena α).owed slot = counts.getD slot 0 := by
  simp only [owed, ofCounts, List.getElem?_toArray, List.getElem?_map, List.getD_eq_getElem?_getD]
  cases counts[slot]? <;> rfl

theorem get?_ofCounts (counts : List Nat) (slot : Nat) :
    (ofCounts counts : Arena α).get? slot = none := by
  simp only [get?, ofCounts, List.getElem?_toArray, List.getElem?_map]
  cases counts[slot]? <;> rfl

/-! ## one slot changed -/

section Change

variable {a b : Arena α} {slot : Nat} {s : ArenaSlot α}

theorem owed_of_set (h : b.slots = a.slots.setIfInBounds slot s) (t : Nat) :
    b.owed t = if t = slot ∧ slot < a.size then s.remaining else a.owed t := by
  rw [owed, h, owed, size]
  by_cases same : t = slot
  · subst same
    by_cases inside : t < a.slots.size <;> simp [inside]
  · simp [same, Ne.symm same]

theorem get?_of_set (h : b.slots = a.slots.setIfInBounds slot s) (t : Nat) :
    b.get? t = if t = slot ∧ slot < a.size then s.buffer else a.get? t := by
  rw [get?, h, get?, size]
  by_cases same : t = slot
  · subst same
    by_cases inside : t < a.slots.size <;> simp [inside]
  · simp [same, Ne.symm same]

/-- No reads are owed to a slot that does not exist. -/
theorem lt_size_of_owed (h : a.owed slot ≠ 0) : slot < a.size := by
  by_contra outside
  exact h (by simp [owed, size] at outside ⊢; simp [outside])

theorem lt_size_of_get? {x : α} (h : a.get? slot = some x) : slot < a.size := by
  by_contra outside
  simp [get?, size] at h outside
  simp [outside] at h

end Change

section Operations

variable (a : Arena α) (slot : Nat)

theorem slots_store_unread (x : α) (unread : a.owed slot = 0) :
    (a.store slot x).2.slots = a.slots := by
  unfold owed at unread
  unfold store
  cases found : a.slots[slot]? with
  | none => rfl
  | some s =>
      have zero : s.remaining = 0 := by simpa [found] using unread
      simp [zero]

theorem slots_store (x : α) (read : a.owed slot ≠ 0) : (a.store slot x).2.slots =
    a.slots.setIfInBounds slot { buffer := some x, remaining := a.owed slot } := by
  unfold owed at read ⊢
  unfold store
  cases found : a.slots[slot]? with
  | none => simp [found] at read
  | some s =>
      have more : s.remaining ≠ 0 := by simpa [found] using read
      simp [more]

theorem slots_release : (a.release slot).2.slots =
    a.slots.setIfInBounds slot
      { buffer := if a.owed slot ≤ 1 then none else a.get? slot, remaining := a.owed slot - 1 } := by
  unfold release owed get?
  cases found : a.slots[slot]? with
  | none =>
      have outside : a.slots.size ≤ slot := by simpa using found
      simp [Array.setIfInBounds, outside]
  | some s =>
      have last : s.remaining - 1 = 0 ↔ s.remaining ≤ 1 := by omega
      simp only [last]
      rfl

theorem slots_take : (a.take slot).2.slots =
    a.slots.setIfInBounds slot { buffer := none, remaining := a.owed slot - 1 } := by
  unfold take owed
  cases found : a.slots[slot]? with
  | none =>
      have outside : a.slots.size ≤ slot := by simpa using found
      simp [Array.setIfInBounds, outside]
  | some s => simp

/-! ## storing -/

theorem size_store (x : α) : (a.store slot x).2.size = a.size := by
  by_cases unread : a.owed slot = 0
  · rw [size, slots_store_unread a slot x unread, size]
  · rw [size, slots_store a slot x unread, Array.size_setIfInBounds, size]

theorem owed_store (x : α) (t : Nat) : (a.store slot x).2.owed t = a.owed t := by
  by_cases unread : a.owed slot = 0
  · rw [owed, slots_store_unread a slot x unread, owed]
  · rw [owed_of_set (slots_store a slot x unread)]
    by_cases same : t = slot
    · subst same
      simp
    · simp [same]

theorem get?_store (x : α) (t : Nat) :
    (a.store slot x).2.get? t = if t = slot ∧ a.owed slot ≠ 0 then some x else a.get? t := by
  by_cases unread : a.owed slot = 0
  · rw [get?, slots_store_unread a slot x unread, get?]
    simp [unread]
  · rw [get?_of_set (slots_store a slot x unread)]
    simp [unread, lt_size_of_owed unread]

/-- A buffer that nobody will read is dropped, and so is one that gives way to another. -/
theorem fst_store (x : α) : (a.store slot x).1 =
    if slot < a.size ∧ a.owed slot = 0 then [x] else (a.get? slot).toList := by
  unfold store owed get? size
  cases found : a.slots[slot]? with
  | none =>
      have outside : a.slots.size ≤ slot := by simpa using found
      simp [outside.not_gt]
  | some s =>
      have inside : slot < a.slots.size := (Array.getElem?_eq_some_iff.mp found).1
      by_cases unread : s.remaining = 0 <;> simp [inside, unread]

/-! ## releasing and taking -/

/-- The last read drops the buffer. -/
theorem fst_release : (a.release slot).1 = if a.owed slot ≤ 1 then (a.get? slot).toList else [] := by
  unfold release owed get?
  cases found : a.slots[slot]? with
  | none => simp
  | some s =>
      have last : s.remaining - 1 = 0 ↔ s.remaining ≤ 1 := by omega
      simp only [last]
      rfl

theorem size_release : (a.release slot).2.size = a.size := by
  rw [size, slots_release, Array.size_setIfInBounds, size]

theorem owed_release (t : Nat) :
    (a.release slot).2.owed t = a.owed t - if t = slot then 1 else 0 := by
  rw [owed_of_set (slots_release a slot)]
  by_cases same : t = slot
  · subst same
    by_cases unread : a.owed t = 0
    · simp [unread]
    · simp [lt_size_of_owed unread]
  · simp [same]

theorem get?_release (t : Nat) :
    (a.release slot).2.get? t = if t = slot ∧ a.owed slot ≤ 1 then none else a.get? t := by
  rw [get?_of_set (slots_release a slot)]
  by_cases same : t = slot
  · subst same
    by_cases inside : t < a.size
    · simp [inside]
    · have empty : a.get? t = none := by
        cases found : a.get? t with
        | none => rfl
        | some x => exact absurd (lt_size_of_get? found) inside
      simp [inside, empty]
  · simp [same]

theorem size_take : (a.take slot).2.size = a.size := by
  rw [size, slots_take, Array.size_setIfInBounds, size]

theorem owed_take (t : Nat) :
    (a.take slot).2.owed t = a.owed t - if t = slot then 1 else 0 := by
  rw [owed_of_set (slots_take a slot)]
  by_cases same : t = slot
  · subst same
    by_cases unread : a.owed t = 0
    · simp [unread]
    · simp [lt_size_of_owed unread]
  · simp [same]

theorem fst_take : (a.take slot).1 = a.get? slot := by
  unfold take get?
  cases a.slots[slot]? <;> rfl

theorem get?_take (t : Nat) : (a.take slot).2.get? t = if t = slot then none else a.get? t := by
  rw [get?_of_set (slots_take a slot)]
  by_cases same : t = slot
  · subst same
    cases found : a.get? t with
    | none => simp
    | some x => simp [lt_size_of_get? found]
  · simp [same]

/-! ## clearing -/

theorem filterMap_range {β γ : Type} (l : List β) (f : β → Option γ) :
    (List.range l.length).filterMap (fun i => l[i]? >>= f) = l.filterMap f := by
  induction l with
  | nil => rfl
  | cons b l ih =>
      rw [List.length_cons, List.range_succ_eq_map, List.filterMap_cons, List.filterMap_map]
      have rest : ((fun i => (b :: l)[i]? >>= f) ∘ Nat.succ) = fun i => l[i]? >>= f := by
        funext i
        simp
      rw [rest, ih, List.filterMap_cons]
      rfl

/-- What is left is dropped in the order of the slots. -/
theorem fst_clear : a.clear.1 = (List.range a.size).filterMap a.get? := by
  have slots := filterMap_range a.slots.toList (·.buffer)
  simp only [Array.getElem?_toList, Array.length_toList] at slots
  exact slots.symm

theorem size_clear : a.clear.2.size = a.size := by simp [size, clear]

theorem owed_clear (t : Nat) : a.clear.2.owed t = a.owed t := by
  simp only [owed, clear, Array.getElem?_map]
  cases a.slots[t]? <;> rfl

theorem get?_clear (t : Nat) : a.clear.2.get? t = none := by
  simp only [get?, clear, Array.getElem?_map]
  cases a.slots[t]? <;> rfl

/-! ## counters -/

theorem counters_store_unread (x : α) (inside : slot < a.size) (unread : a.owed slot = 0) :
    (a.store slot x).2.counters =
      { a.counters with stored := a.counters.stored + 1, freed := a.counters.freed + 1 } := by
  have found : a.slots[slot]? = some a.slots[slot] := Array.getElem?_eq_getElem inside
  have zero : a.slots[slot].remaining = 0 := by simpa [owed, found] using unread
  simp [store, found, zero]

theorem counters_store (x : α) (read : a.owed slot ≠ 0) : (a.store slot x).2.counters =
    { a.counters with
      stored := a.counters.stored + 1
      peakLive := max a.counters.peakLive (a.store slot x).2.live } := by
  have inside : slot < a.size := lt_size_of_owed read
  have found : a.slots[slot]? = some a.slots[slot] := Array.getElem?_eq_getElem inside
  have more : a.slots[slot].remaining ≠ 0 := by simpa [owed, found] using read
  simp [store, found, more, live]

theorem counters_release : (a.release slot).2.counters =
    { a.counters with freed := a.counters.freed + (a.release slot).1.length } := by
  unfold release
  cases a.slots[slot]? <;> rfl

theorem counters_take : (a.take slot).2.counters = a.counters := by
  unfold take
  cases a.slots[slot]? <;> rfl

theorem counters_clear : a.clear.2.counters =
    { a.counters with freed := a.counters.freed + a.clear.1.length } := rfl

end Operations

end HomCircuit.Arena
