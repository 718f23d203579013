import HomCircuit.Context.Options

/-!
# HomCircuit.Config.Basic

The configuration: one structure for each part of it, with the values that hold where nothing is
configured.

* `Config` — the whole configuration;
* `Config.options` — what a context is set up with.
-/

namespace HomCircuit

namespace Config

/-- How nodes are started. -/
structure Scheduling where
  /-- Number of workers; zero leaves it to the machine. -/
  parallelism : Nat := 0
  deterministic : Bool := false
  elide : Bool := true
  deriving DecidableEq, Inhabited

/-- The cache of keys and where keys come from. -/
structure Keys where
  cacheCapacity : Nat := 32
  seed : KeySeed := {}
  deriving DecidableEq, Inhabited

/-- The devices. -/
structure Accelerator where
  enabled : Bool := false
  deviceCount : Nat := 1
  /-- Bytes of memory of each device. -/
  deviceMemory : Nat := 1 <<< 28
  /-- The name of a selection policy. -/
  selection : String := "round_robin"
  cpuFallback : Bool := true
  deriving DecidableEq, Inhabited

/-- The remote workers. -/
structure Distribution where
  workers : Nat := 0
  channelCapacity : Nat := 64
  /-- Milliseconds until a request without completion is sent again. -/
  ackTimeout : Nat := 5000
  deriving DecidableEq, Inhabited

/-- What is logged. -/
structure Logging where
  level : String := "info"
  /-- Parts of the program that log at debug level whatever the level is. -/
  debugNames : List String := []
  deriving DecidableEq, Inhabited

end Config

/-- The configuration of the program. -/
structure Config where
  scheduling : Config.Scheduling := {}
  keys : Config.Keys := {}
  accelerator : Config.Accelerator := {}
  simulation : Bool := false
  distribution : Config.Distribution := {}
  logging : Config.Logging := {}
  deriving DecidableEq, Inhabited

namespace Config

/-- The names of selection policies that a configuration may use. -/
def selections : List String := ["round_robin", "least_loaded"]

/-- The log levels that a configuration may use. -/
def levels : List String := ["trace", "debug", "info", "warn", "error"]

/-- What a context is set up with, unless the selection policy has no such name. -/
def options (c : Config) : Except RunError ContextOptions := do
  let policy ← SelectionPolicy.parse c.accelerator.selection
  return {
    parallelism := c.scheduling.parallelism
    accelerator := c.accelerator.enabled
    simulation := c.simulation
    cacheCapacity := c.keys.cacheCapacity
    deterministic := c.scheduling.deterministic
    elide := c.scheduling.elide
    seed := c.keys.seed
    policy
    cpuFallback := c.accelerator.cpuFallback
    deviceCount := c.accelerator.deviceCount
    deviceMemory := c.accelerator.deviceMemory
    remoteWorkers := c.distribution.workers
    channelCapacity := c.distribution.channelCapacity
    ackTimeout := c.distribution.ackTimeout }

end Config

end HomCircuit
