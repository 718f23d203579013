import HomCircuit.Config.Basic
import HomCircuit.Toml.Reader

/-!
# HomCircuit.Config.File

The configuration that a file describes.

```
[runtime]       parallelism, deterministic_order, elide_dead_nodes
[keys]          cache_capacity, secret_seed, encryption_seed
[accelerator]   enabled, device_count, device_memory_bytes, selection, cpu_fallback
[simulation]    enabled
[distributed]   remote_workers, channel_capacity, ack_timeout_ms
[logging]       level, debug_crates
```

What the file does not mention keeps its default, and what it mentions beyond these is ignored; an
item of the wrong kind is refused. A part may also be an array, which gives its items in the order
above, and a date or time in the place of a part holds no item.

* `Config.parse?` — the configuration that a text describes.
-/

namespace HomCircuit.Config

open Toml (Item Members)

/-! ## items -/

/-- A whole number that is not negative. -/
def natural? : Item → Option Nat
  | .integer n => if 0 ≤ n then some n.toNat else none
  | _ => none

/-- A seed. -/
def word? (i : Item) : Option UInt64 := (natural? i).map UInt64.ofNat

/-- A truth value. -/
def flag? : Item → Option Bool
  | .bool b => some b
  | _ => none

/-- A text. -/
def text? : Item → Option String
  | .string s => some s
  | _ => none

/-- The items of an array, or the rows of a table. -/
def items? : Item → Option (List Item)
  | .array items => some items
  | .rows tables => some (tables.reverse.map (.table .header))
  | _ => none

/-! ## parts -/

/-- The items of a part by their place in the list of keys and by their key. -/
abbrev Fields := Nat → String → Option Item

/-- The items that something in the place of a part holds. -/
def fields? : Item → Option Fields
  | .table _ members => some fun _ key => members.lookup key
  | .moment => some fun _ _ => none
  | i => (items? i).map fun items => fun place _ => items[place]?

/-- One item of a part, with its default. -/
def Fields.read {α : Type} (f : Fields) (place : Nat) (key : String) (read : Item → Option α)
    (default : α) : Option α :=
  match f place key with
  | none => some default
  | some i => read i

/-- How nodes are started. -/
def Scheduling.ofItem? (i : Item) : Option Scheduling := do
  let f ← fields? i
  let base : Scheduling := {}
  some
    { parallelism := ← f.read 0 "parallelism" natural? base.parallelism
      deterministic := ← f.read 1 "deterministic_order" flag? base.deterministic
      elide := ← f.read 2 "elide_dead_nodes" flag? base.elide }

/-- The cache of keys and where keys come from. -/
def Keys.ofItem? (i : Item) : Option Keys := do
  let f ← fields? i
  let base : Keys := {}
  some
    { cacheCapacity := ← f.read 0 "cache_capacity" natural? base.cacheCapacity
      seed :=
        { secret := ← f.read 1 "secret_seed" word? base.seed.secret
          encryption := ← f.read 2 "encryption_seed" word? base.seed.encryption } }

/-- The devices. -/
def Accelerator.ofItem? (i : Item) : Option Accelerator := do
  let f ← fields? i
  let base : Accelerator := {}
  some
    { enabled := ← f.read 0 "enabled" flag? base.enabled
      deviceCount := ← f.read 1 "device_count" natural? base.deviceCount
      deviceMemory := ← f.read 2 "device_memory_bytes" natural? base.deviceMemory
      selection := ← f.read 3 "selection" text? base.selection
      cpuFallback := ← f.read 4 "cpu_fallback" flag? base.cpuFallback }

/-- Whether there is only simulation. -/
def simulation? (i : Item) : Option Bool := do
  let f ← fields? i
  f.read 0 "enabled" flag? false

/-- The remote workers. -/
def Distribution.ofItem? (i : Item) : Option Distribution := do
  let f ← fields? i
  let base : Distribution := {}
  some
    { workers := ← f.read 0 "remote_workers" natural? base.workers
      channelCapacity := ← f.read 1 "channel_capacity" natural? base.channelCapacity
      ackTimeout := ← f.read 2 "ack_timeout_ms" natural? base.ackTimeout }

/-- What is logged. -/
def Logging.ofItem? (i : Item) : Option Logging := do
  let f ← fields? i
  let base : Logging := {}
  let texts (i : Item) : Option (List String) := do (← items? i).mapM text?
  some
    { level := ← f.read 0 "level" text? base.level
      debugNames := ← f.read 1 "debug_crates" texts base.debugNames }

/-! ## the whole -/

/-- The configuration that a document describes. -/
def ofDocument? (document : Members) : Option Config := do
  let f : Fields := fun _ key => document.lookup key
  some
    { scheduling := ← f.read 0 "runtime" Scheduling.ofItem? {}
      keys := ← f.read 1 "keys" Keys.ofItem? {}
      accelerator := ← f.read 2 "accelerator" Accelerator.ofItem? {}
      simulation := ← f.read 3 "simulation" simulation? false
      distribution := ← f.read 4 "distributed" Distribution.ofItem? {}
      logging := ← f.read 5 "logging" Logging.ofItem? {} }

/-- The configuration that a text describes. -/
def parse? (s : String) : Option Config := Toml.parse? s >>= ofDocument?

end HomCircuit.Config
