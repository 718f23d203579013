/-!
# HomCircuit.Arena

The buffers of one invocation, one slot for each value of the graph.

A slot knows how many reads are still owed to it, one for every consuming edge and one if a caller
asked for the value. Its buffer is dropped at the last of them.

```
stored  =  freed + taken + live
```

* `store`, `get?`, `release`, `take`, `clear` — the operations; those that drop buffers return
  them, so that what they stand for can be released;
* `live`, `counters` — how many buffers are held, were stored, were dropped, and the most that were
  held at once.
-/

namespace HomCircuit

/-- A slot: its buffer, if any, and the reads still owed. -/
structure ArenaSlot (α : Type) where
  buffer : Option α := none
  remaining : Nat

/-- What an arena counts. -/
structure ArenaCounters where
  stored : Nat := 0
  freed : Nat := 0
  peakLive : Nat := 0
  deriving DecidableEq, Inhabited

/-- The buffers of one invocation. -/
structure Arena (α : Type) where
  slots : Array (ArenaSlot α)
  counters : ArenaCounters := {}

instance {α : Type} : Inhabited (Arena α) := ⟨{ slots := #[] }⟩

namespace Arena

variable {α : Type}

/-- An empty arena with the number of reads owed to each slot. -/
def ofCounts (counts : List Nat) : Arena α :=
  { slots := (counts.map fun n => { remaining := n }).toArray }

/-- Number of slots. -/
def size (a : Arena α) : Nat := a.slots.size

/-- Number of buffers held. -/
def live (a : Arena α) : Nat := a.slots.countP (·.buffer.isSome)

/-- The buffer in a slot. -/
def get? (a : Arena α) (slot : Nat) : Option α := a.slots[slot]? >>= ArenaSlot.buffer

/-- Puts a fresh buffer in its slot; one that nobody will read is dropped at once, and a slot that
does not exist only counts the attempt. -/
def store (a : Arena α) (slot : Nat) (x : α) : List α × Arena α :=
  let counted := { a.counters with stored := a.counters.stored + 1 }
  match a.slots[slot]? with
  | none => ([], { a with counters := counted })
  | some s =>
    if s.remaining = 0 then
      ([x], { a with counters := { counted with freed := counted.freed + 1 } })
    else
      let held := { a with slots := a.slots.setIfInBounds slot { s with buffer := some x } }
      (s.buffer.toList,
        { held with counters := { counted with peakLive := max counted.peakLive held.live } })

/-- Ends one read; the last one drops the buffer. -/
def release (a : Arena α) (slot : Nat) : List α × Arena α :=
  match a.slots[slot]? with
  | none => ([], a)
  | some s =>
    let left := s.remaining - 1
    let kept := if left = 0 then none else s.buffer
    let dropped := if left = 0 then s.buffer.toList else []
    (dropped,
      { slots := a.slots.setIfInBounds slot { buffer := kept, remaining := left }
        counters := { a.counters with freed := a.counters.freed + dropped.length } })

/-- Hands out the buffer of a slot, which is its final read. -/
def take (a : Arena α) (slot : Nat) : Option α × Arena α :=
  match a.slots[slot]? with
  | none => (none, a)
  | some s =>
    (s.buffer,
      { a with slots := a.slots.setIfInBounds slot
                { buffer := none, remaining := s.remaining - 1 } })

/-- Drops every buffer that is left. -/
def clear (a : Arena α) : List α × Arena α :=
  let dropped := a.slots.toList.filterMap (·.buffer)
  (dropped,
    { slots := a.slots.map fun s => { s with buffer := none }
      counters := { a.counters with freed := a.counters.freed + dropped.length } })

end Arena

end HomCircuit
