import HomCircuit.Backend.Mode
import HomCircuit.Key.Set

/-!
# HomCircuit.Context.Options

What a context is set up with, and which settings do not go together.
-/

namespace HomCircuit

/-- What a context is set up with. -/
structure ContextOptions where
  /-- Number of workers; zero leaves it to the number of devices, or to the machine. -/
  parallelism : Nat := 0
  accelerator : Bool := false
  simulation : Bool := false
  cacheCapacity : Nat := 32
  deterministic : Bool := false
  elide : Bool := true
  seed : KeySeed := {}
  policy : SelectionPolicy := .roundRobin
  cpuFallback : Bool := true
  deviceCount : Nat := 1
  /-- Bytes of memory of each device. -/
  deviceMemory : Nat := 1 <<< 28
  remoteWorkers : Nat := 0
  channelCapacity : Nat := 64
  /-- Milliseconds that a request to a remote worker waits for its completion. -/
  ackTimeout : Nat := 5000
  deriving Inhabited

namespace ContextOptions

/-- What the context runs on. -/
def mode (o : ContextOptions) : Mode :=
  if o.simulation then .simulation else if o.accelerator then .accelerator else .cpu

/-- Refuses settings that do not go together. -/
def validate (o : ContextOptions) : Except RunError Unit :=
  if o.accelerator && o.simulation then
    .error (.initialization "accelerator and simulation modes are mutually exclusive")
  else if o.cacheCapacity = 0 then
    .error (.initialization "key cache capacity must be at least 1")
  else .ok ()

end ContextOptions

end HomCircuit
