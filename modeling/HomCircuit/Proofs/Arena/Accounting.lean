import HomCircuit.Proofs.Arena

/-!
# HomCircuit.Proofs.Arena.Accounting

What becomes of the buffers of an arena, whatever calls are made on it.

```
brought + held before  =  dropped + taken + held after
```

The law holds for one call, hence for a run. Reads may end before their buffer comes, a take ends a
read without dropping anything, and a clearing leaves the reads that are owed as they are.

* `ArenaCall`, `Arena.run` — what is done with an arena, and what it comes to;
* `Arena.dropped`, `Arena.taken`, `Arena.held` — the buffers, in no order;
* `Arena.Allows` — calls are about slots that exist, and stores find them empty;
* `ArenaCall.Allowed.conserves`, `Arena.Allows.conserves` — the law for a call and for a run;
* `Arena.Allows.isGreatest_peakLive` — the peak is the most that was held;
* `Arena.run_accounts` — the counters tell what became of the buffers.
-/

namespace HomCircuit

/-! ## calls -/

/-- A call on an arena. -/
inductive ArenaCall (α : Type)
  | store (slot : Nat) (x : α)
  | get (slot : Nat)
  | release (slot : Nat)
  | take (slot : Nat)
  | clear
  deriving DecidableEq

namespace ArenaCall

variable {α : Type}

/-- The arena after a call. -/
def next (a : Arena α) : ArenaCall α → Arena α
  | .store slot x => (a.store slot x).2
  | .get _ => a
  | .release slot => (a.release slot).2
  | .take slot => (a.take slot).2
  | .clear => a.clear.2

/-- The buffer that a call brings. -/
def brought : ArenaCall α → Multiset α
  | .store _ x => {x}
  | .get _ | .release _ | .take _ | .clear => 0

/-- The buffers that a call drops. -/
def dropped (a : Arena α) : ArenaCall α → Multiset α
  | .store slot x => (a.store slot x).1
  | .release slot => (a.release slot).1
  | .clear => a.clear.1
  | .get _ | .take _ => 0

/-- The buffer that a take returns. -/
def taken (a : Arena α) : ArenaCall α → Multiset α
  | .take slot => (a.take slot).1.toList
  | .store .. | .get _ | .release _ | .clear => 0

/-- Whether a call ends a read of a slot. -/
def endsRead (slot : Nat) : ArenaCall α → Bool
  | .release s | .take s => s = slot
  | .store .. | .get _ | .clear => false

/-- A call is about a slot of the arena, and a store finds it empty. -/
def Allowed (a : Arena α) : ArenaCall α → Prop
  | .store slot _ => slot < a.size ∧ a.get? slot = none
  | .get slot | .release slot | .take slot => slot < a.size
  | .clear => True

instance (a : Arena α) : (call : ArenaCall α) → Decidable (call.Allowed a)
  | .store slot _ => inferInstanceAs (Decidable (slot < a.size ∧ a.get? slot = none))
  | .get slot | .release slot | .take slot => inferInstanceAs (Decidable (slot < a.size))
  | .clear => inferInstanceAs (Decidable True)

end ArenaCall

namespace Arena

variable {α : Type}

/-- An arena after some calls. -/
def run (a : Arena α) (calls : List (ArenaCall α)) : Arena α := calls.foldl ArenaCall.next a

/-- What is gathered from the calls of a run, each with the arena that it is made on. -/
def gather (yields : Arena α → ArenaCall α → Multiset α) (a : Arena α) :
    List (ArenaCall α) → Multiset α
  | [] => 0
  | call :: calls => yields a call + gather yields (call.next a) calls

/-- The buffers that are dropped during some calls. -/
def dropped (a : Arena α) : List (ArenaCall α) → Multiset α := a.gather ArenaCall.dropped

/-- The buffers that takes return. -/
def taken (a : Arena α) : List (ArenaCall α) → Multiset α := a.gather ArenaCall.taken

/-- The buffers in the slots. -/
def held (a : Arena α) : Multiset α := ↑(a.slots.toList.filterMap (·.buffer))

/-- How many buffers are held at the times of a run: before it, and after each of its calls. -/
def levels (a : Arena α) (calls : List (ArenaCall α)) : Set Nat :=
  { n | ∃ before, before <+: calls ∧ (a.run before).live = n }

/-- Each call is allowed when it is made. -/
def Allows (a : Arena α) : List (ArenaCall α) → Prop
  | [] => True
  | call :: calls => call.Allowed a ∧ (call.next a).Allows calls

instance decidableAllows : (a : Arena α) → (calls : List (ArenaCall α)) → Decidable (a.Allows calls)
  | _, [] => inferInstanceAs (Decidable True)
  | a, call :: calls =>
    have := decidableAllows (call.next a) calls
    inferInstanceAs (Decidable (call.Allowed a ∧ (call.next a).Allows calls))

/-- Nothing is held in a slot that no reads are owed to. -/
def Tidy (a : Arena α) : Prop := ∀ slot, a.owed slot = 0 → a.get? slot = none

/-! ## the buffers that are held -/

section Held

variable {a b : Arena α} {slot : Nat} {s : ArenaSlot α}

theorem live_eq_card (a : Arena α) : a.live = a.held.card := by
  rw [held, Multiset.coe_card, List.length_filterMap_eq_countP, Array.countP_toList, live]

theorem held_ofCounts (counts : List Nat) : (ofCounts counts : Arena α).held = 0 := by
  simp [held, ofCounts]

/-- Clearing drops all that is held. -/
theorem coe_fst_clear (a : Arena α) : (a.clear.1 : Multiset α) = a.held := rfl

theorem held_clear (a : Arena α) : a.clear.2.held = 0 := by
  simp [held, clear]

/-- A slot that is changed gives one buffer for another. -/
theorem held_of_set (h : b.slots = a.slots.setIfInBounds slot s) (inside : slot < a.size) :
    ((a.get? slot).toList : Multiset α) + b.held = s.buffer.toList + a.held := by
  have inside' : slot < a.slots.toList.length := inside
  have buffer : a.get? slot = a.slots.toList[slot].buffer := by
    rw [get?, Array.getElem?_eq_getElem inside]
    rfl
  have added (s : ArenaSlot α) (others : List (ArenaSlot α)) :
      (((s :: others).filterMap (·.buffer) : List α) : Multiset α) =
        s.buffer.toList + (others.filterMap (·.buffer) : List α) := by
    simp only [Multiset.coe_add, List.filterMap_eq_flatMap_toList, List.flatMap_cons]
  have before := (List.getElem_cons_eraseIdx_perm inside').filterMap (·.buffer)
  have after := (List.set_perm_cons_eraseIdx inside' s).filterMap (·.buffer)
  rw [held, h, Array.toList_setIfInBounds, held, ← Multiset.coe_eq_coe.mpr before,
    Multiset.coe_eq_coe.mpr after, added, added, buffer]
  exact add_left_comm _ _ _

end Held

end Arena

/-! ## one call -/

namespace ArenaCall

open Arena

variable {α : Type} {a : Arena α} {call : ArenaCall α}

/-- What was held and what is brought is dropped, taken or held. -/
theorem Allowed.conserves (h : call.Allowed a) :
    call.brought + a.held = call.dropped a + call.taken a + (call.next a).held := by
  cases call with
  | store slot x =>
      obtain ⟨inside, -⟩ := h
      simp only [brought, dropped, taken, next, add_zero, fst_store]
      by_cases unread : a.owed slot = 0
      · rw [if_pos ⟨inside, unread⟩, held, held, slots_store_unread a slot x unread]
        rfl
      · rw [if_neg fun h => unread h.2]
        exact (held_of_set (slots_store a slot x unread) inside).symm
  | get slot => simp [brought, dropped, taken, next]
  | release slot =>
      have set := held_of_set (slots_release a slot) h
      by_cases last : a.owed slot ≤ 1 <;>
        simpa [brought, dropped, taken, next, fst_release, last] using set.symm
  | take slot =>
      have set := held_of_set (slots_take a slot) h
      simpa [brought, dropped, taken, next, fst_take] using set.symm
  | clear => simp [brought, dropped, taken, next, held_clear, coe_fst_clear]

/-- Only a store brings something, so no other call makes the buffers more. -/
theorem Allowed.live_next_le (h : call.Allowed a) (nothing : call.brought = 0) :
    (call.next a).live ≤ a.live := by
  have sizes := congrArg Multiset.card h.conserves
  simp only [nothing, zero_add, Multiset.card_add, ← live_eq_card] at sizes
  omega

theorem Allowed.stored_next (h : call.Allowed a) :
    (call.next a).counters.stored = a.counters.stored + call.brought.card := by
  cases call with
  | store slot x =>
      by_cases unread : a.owed slot = 0
      · simp [next, brought, counters_store_unread a slot x h.1 unread]
      · simp [next, brought, counters_store a slot x unread]
  | get slot => rfl
  | release slot => simp [next, brought, counters_release]
  | take slot => simp [next, brought, counters_take]
  | clear => simp [next, brought, counters_clear]

/-- A store that finds its slot empty drops its own buffer or none, so all that is dropped is
counted. -/
theorem Allowed.freed_next (h : call.Allowed a) :
    (call.next a).counters.freed = a.counters.freed + (call.dropped a).card := by
  cases call with
  | store slot x =>
      by_cases unread : a.owed slot = 0
      · simp [next, dropped, fst_store, counters_store_unread a slot x h.1 unread, h.1, unread]
      · simp [next, dropped, fst_store, counters_store a slot x unread, h.2, unread]
  | get slot => rfl
  | release slot => simp [next, dropped, counters_release]
  | take slot => simp [next, dropped, counters_take]
  | clear => simp [next, dropped, counters_clear]

/-- The peak is raised to what is held after a call, if it was at least what was held before. -/
theorem Allowed.peakLive_next (h : call.Allowed a) (bound : a.live ≤ a.counters.peakLive) :
    (call.next a).counters.peakLive = max (call.next a).live a.counters.peakLive := by
  -- All calls but a store leave the peak as it is, and no more is held after them.
  have same (nothing : call.brought = 0)
      (kept : (call.next a).counters.peakLive = a.counters.peakLive) :
      (call.next a).counters.peakLive = max (call.next a).live a.counters.peakLive := by
    rw [kept, max_eq_right ((h.live_next_le nothing).trans bound)]
  cases call with
  | store slot x =>
      by_cases unread : a.owed slot = 0
      · have kept : (a.store slot x).2.live = a.live := by
          rw [live, slots_store_unread a slot x unread, live]
        simp [next, counters_store_unread a slot x h.1 unread, kept, bound]
      · simp [next, counters_store a slot x unread, max_comm]
  | get slot => exact same rfl rfl
  | release slot => exact same rfl (by simp [next, counters_release])
  | take slot => exact same rfl (by simp [next, counters_take])
  | clear => exact same rfl (by simp [next, counters_clear])

theorem size_next : (call.next a).size = a.size := by
  cases call with
  | store slot x => exact size_store a slot x
  | get slot => rfl
  | release slot => exact size_release a slot
  | take slot => exact size_take a slot
  | clear => exact size_clear a

theorem owed_next (slot : Nat) :
    (call.next a).owed slot = a.owed slot - if call.endsRead slot then 1 else 0 := by
  cases call with
  | store s x => simp [next, endsRead, owed_store]
  | get s => rfl
  | release s => simp [next, endsRead, owed_release, eq_comm]
  | take s => simp [next, endsRead, owed_take, eq_comm]
  | clear => simp [next, endsRead, owed_clear]

/-- The last read empties its slot, and a slot without reads is not filled. -/
theorem tidy_next (h : a.Tidy) : (call.next a).Tidy := by
  intro slot none_
  cases call with
  | store s x =>
      simp only [next, owed_store, get?_store] at none_ ⊢
      rw [if_neg fun filled => filled.2 (filled.1 ▸ none_), h slot none_]
  | get s => exact h slot none_
  | release s =>
      simp only [next, owed_release, get?_release] at none_ ⊢
      by_cases same : slot = s
      · subst same
        have last : a.owed slot ≤ 1 := by simpa [Nat.sub_eq_zero_iff_le] using none_
        rw [if_pos ⟨rfl, last⟩]
      · rw [if_neg fun last => same last.1, h slot (by simpa [same] using none_)]
  | take s =>
      simp only [next, owed_take, get?_take] at none_ ⊢
      by_cases same : slot = s
      · rw [if_pos same]
      · rw [if_neg same, h slot (by simpa [same] using none_)]
  | clear => exact get?_clear a slot

end ArenaCall

/-! ## a run -/

namespace Arena

variable {α : Type} {a : Arena α} {calls : List (ArenaCall α)}

theorem run_append (a : Arena α) (first rest : List (ArenaCall α)) :
    a.run (first ++ rest) = (a.run first).run rest := List.foldl_append

theorem allows_append {first rest : List (ArenaCall α)} :
    a.Allows (first ++ rest) ↔ a.Allows first ∧ (a.run first).Allows rest := by
  induction first generalizing a with
  | nil => simp [Allows, run]
  | cons call first ih => simp only [List.cons_append, Allows, ih, run, List.foldl_cons, and_assoc]

/-- Every buffer that is brought or was there is dropped, taken or still held. -/
theorem Allows.conserves (h : a.Allows calls) :
    (calls.map ArenaCall.brought).sum + a.held =
      a.dropped calls + a.taken calls + (a.run calls).held := by
  induction calls generalizing a with
  | nil => simp [dropped, taken, gather, run]
  | cons call calls ih =>
      obtain ⟨first, others⟩ := h
      calc
        ((call :: calls).map ArenaCall.brought).sum + a.held
          = (calls.map ArenaCall.brought).sum + (call.brought + a.held) := by
            rw [List.map_cons, List.sum_cons, add_right_comm, add_comm]
        _ = call.dropped a + call.taken a +
              ((calls.map ArenaCall.brought).sum + (call.next a).held) := by
            rw [first.conserves, add_left_comm]
        _ = call.dropped a + call.taken a + ((call.next a).dropped calls +
              (call.next a).taken calls + ((call.next a).run calls).held) := by rw [ih others]
        _ = call.dropped a + (call.next a).dropped calls +
              (call.taken a + (call.next a).taken calls) + ((call.next a).run calls).held := by
            rw [← add_assoc, add_add_add_comm]

theorem Allows.stored_run (h : a.Allows calls) : (a.run calls).counters.stored =
    a.counters.stored + (calls.map ArenaCall.brought).sum.card := by
  induction calls generalizing a with
  | nil => rfl
  | cons call calls ih =>
      obtain ⟨first, others⟩ := h
      have rest := ih others
      rw [first.stored_next, add_assoc] at rest
      rwa [List.map_cons, List.sum_cons, Multiset.card_add]

theorem Allows.freed_run (h : a.Allows calls) : (a.run calls).counters.freed =
    a.counters.freed + (a.dropped calls).card := by
  induction calls generalizing a with
  | nil => rfl
  | cons call calls ih =>
      obtain ⟨first, others⟩ := h
      have rest := ih others
      rw [first.freed_next, add_assoc, ← Multiset.card_add] at rest
      exact rest

theorem size_run (a : Arena α) (calls : List (ArenaCall α)) : (a.run calls).size = a.size := by
  induction calls generalizing a with
  | nil => rfl
  | cons call calls ih => exact (ih (call.next a)).trans ArenaCall.size_next

theorem owed_run (a : Arena α) (calls : List (ArenaCall α)) (slot : Nat) :
    (a.run calls).owed slot = a.owed slot - calls.countP (·.endsRead slot) := by
  induction calls generalizing a with
  | nil => rfl
  | cons call calls ih =>
      have rest := ih (call.next a)
      rw [ArenaCall.owed_next, Nat.sub_sub, add_comm, ← List.countP_cons] at rest
      exact rest

theorem Tidy.run (h : a.Tidy) (calls : List (ArenaCall α)) : (a.run calls).Tidy := by
  induction calls generalizing a with
  | nil => exact h
  | cons call calls ih => exact ih (ArenaCall.tidy_next h)

/-! ## the peak -/

theorem levels_nil (a : Arena α) : a.levels [] = {a.live} := by
  ext n
  simp [levels, run, eq_comm]

/-- One more call adds what is held after it. -/
theorem levels_snoc (a : Arena α) (calls : List (ArenaCall α)) (call : ArenaCall α) :
    a.levels (calls ++ [call]) = insert (call.next (a.run calls)).live (a.levels calls) := by
  have last : a.run (calls ++ [call]) = call.next (a.run calls) := run_append a calls [call]
  ext n
  simp only [levels, Set.mem_ofPred_eq, Set.mem_insert_iff, List.prefix_concat_iff, or_and_right,
    exists_or, exists_eq_left, last, eq_comm]

theorem live_mem_levels (a : Arena α) (calls : List (ArenaCall α)) :
    (a.run calls).live ∈ a.levels calls := ⟨calls, List.prefix_rfl, rfl⟩

/-- If the peak was what is held, it is what was held at most from then on. -/
theorem Allows.isGreatest_peakLive (h : a.Allows calls) (start : a.counters.peakLive = a.live) :
    IsGreatest (a.levels calls) (a.run calls).counters.peakLive := by
  -- The calls are taken from their end, since a last call adds the one level after it.
  induction calls using List.reverseRecOn with
  | nil =>
      rw [levels_nil]
      exact start ▸ isGreatest_singleton
  | append_singleton calls call ih =>
      obtain ⟨before, last, -⟩ := allows_append.mp h
      have greatest := ih before
      have bound := greatest.2 (live_mem_levels a calls)
      have raised := last.peakLive_next bound
      rw [levels_snoc, run_append]
      exact raised ▸ greatest.insert _

/-! ## accounts -/

/-- After any calls that are about slots of the arena and store into empty ones, the slots are those
of the beginning, and each is owed its reads less those that were ended, and holds nothing if it is
owed none. The counters tell how many buffers were brought, how many of them were dropped, and the
most that were held at any time; what was not dropped was taken or is held. -/
theorem run_accounts (counts : List Nat) (calls : List (ArenaCall α))
    (allowed : (ofCounts counts : Arena α).Allows calls) :
    let start : Arena α := ofCounts counts
    let a := start.run calls
    a.size = counts.length ∧
    (∀ slot, a.owed slot = counts.getD slot 0 - calls.countP (·.endsRead slot) ∧
      (a.owed slot = 0 → a.get? slot = none)) ∧
    (a.counters.stored = a.counters.freed + (start.taken calls).card + a.live ∧
      a.counters.stored = (calls.map ArenaCall.brought).sum.card ∧
      a.counters.freed = (start.dropped calls).card ∧
      (calls.map ArenaCall.brought).sum = start.dropped calls + start.taken calls + a.held) ∧
    IsGreatest (start.levels calls) a.counters.peakLive := by
  intro start a
  have tidy : a.Tidy := Tidy.run (fun slot _ => get?_ofCounts counts slot) calls
  have stored : a.counters.stored = (calls.map ArenaCall.brought).sum.card :=
    allowed.stored_run.trans (Nat.zero_add _)
  have freed : a.counters.freed = (start.dropped calls).card :=
    allowed.freed_run.trans (Nat.zero_add _)
  have whole : (calls.map ArenaCall.brought).sum =
      start.dropped calls + start.taken calls + a.held := by
    have conserved := allowed.conserves
    rwa [held_ofCounts, add_zero] at conserved
  have empty : start.counters.peakLive = start.live := by
    rw [live_eq_card, held_ofCounts]
    rfl
  have balance : a.counters.stored = a.counters.freed + (start.taken calls).card + a.live := by
    rw [stored, whole, Multiset.card_add, Multiset.card_add, freed, live_eq_card]
  refine ⟨(size_run start calls).trans (size_ofCounts counts), fun slot => ⟨?_, tidy slot⟩,
    ⟨balance, stored, freed, whole⟩, allowed.isGreatest_peakLive empty⟩
  rw [← owed_ofCounts (α := α) counts slot]
  exact owed_run start calls slot

/-- A read that ends before its buffer comes, a buffer that nobody will read, a slot whose only read
is a take that finds nothing, and a slot that is filled again after a take and after a clearing. -/
theorem run_accounts_refilled :
    let start : Arena Nat := ofCounts [2, 0, 1, 3]
    let calls : List (ArenaCall Nat) := [.release 0, .store 0 10, .store 1 11, .store 3 13, .get 3,
      .take 2, .store 2 12, .release 0, .take 3, .store 3 14, .clear, .store 3 15]
    let a := start.run calls
    (start.Allows calls ∧ a.counters = { stored := 6, freed := 4, peakLive := 2 } ∧
      start.dropped calls = {10, 11, 12, 14} ∧ start.taken calls = {13} ∧ a.held = {15} ∧
      a.owed 0 = 0) ∧
    6 = 4 + (start.taken calls).card + a.live ∧ IsGreatest (start.levels calls) 2 ∧
      a.get? 0 = none := by
  intro start calls a
  have evaluated : start.Allows calls ∧ a.counters = { stored := 6, freed := 4, peakLive := 2 } ∧
      start.dropped calls = {10, 11, 12, 14} ∧ start.taken calls = {13} ∧ a.held = {15} ∧
      a.owed 0 = 0 := by decide +kernel
  obtain ⟨-, slots, ⟨balance, -⟩, peak⟩ := run_accounts [2, 0, 1, 3] calls evaluated.1
  change a.counters.stored = a.counters.freed + (start.taken calls).card + a.live at balance
  change IsGreatest (start.levels calls) a.counters.peakLive at peak
  rw [evaluated.2.1] at balance peak
  exact ⟨evaluated, balance, peak, (slots 0).2 evaluated.2.2.2.2.2⟩

end Arena

end HomCircuit
