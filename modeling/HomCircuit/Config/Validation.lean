import HomCircuit.Config.Basic

/-!
# HomCircuit.Config.Validation

What is wrong with a configuration.

* `Config.problems` — every problem, missing texts first;
* `Config.validate` — refuses a configuration that has one.
-/

namespace HomCircuit.Config

/-- Something wrong with one entry of a configuration. -/
inductive Problem
  | missing (field : String)
  | invalid (field reason : String)
  deriving DecidableEq, Inhabited

/-- What a problem says. -/
def Problem.message : Problem → String
  | .missing field => s!"Missing required configuration: {field}"
  | .invalid field reason => s!"Invalid configuration value for {field}: {reason}"

/-- A problem, if a condition holds. -/
def problemIf (bad : Prop) [Decidable bad] (p : Problem) : List Problem := if bad then [p] else []

/-- Every problem of a configuration. -/
def problems (c : Config) : List Problem :=
  let policy := c.accelerator.selection
  let level := c.logging.level
  let remote := "must be positive when remote workers are configured"
  problemIf (level = "") (.missing "logging.level") ++
  problemIf (policy = "") (.missing "accelerator.selection") ++
  problemIf (c.keys.cacheCapacity = 0) (.invalid "keys.cache_capacity" "must be at least 1") ++
  problemIf (4096 < c.scheduling.parallelism)
    (.invalid "runtime.parallelism" "must be at most 4096 (0 = auto-detect)") ++
  problemIf (c.accelerator.enabled ∧ c.accelerator.deviceCount = 0)
    (.invalid "accelerator.device_count" "must be at least 1 when the accelerator is enabled") ++
  problemIf (c.accelerator.enabled ∧ c.accelerator.deviceMemory = 0)
    (.invalid "accelerator.device_memory_bytes" "must be positive") ++
  problemIf (policy ≠ "" ∧ policy ∉ selections)
    (.invalid "accelerator.selection" ("must be one of " ++ ", ".intercalate selections)) ++
  problemIf (0 < c.distribution.workers ∧ c.distribution.channelCapacity = 0)
    (.invalid "distributed.channel_capacity" remote) ++
  problemIf (0 < c.distribution.workers ∧ c.distribution.ackTimeout = 0)
    (.invalid "distributed.ack_timeout_ms" remote) ++
  problemIf (level ≠ "" ∧ level ∉ levels)
    (.invalid "logging.level" ("must be one of " ++ ", ".intercalate levels))

/-- Why there is no configuration. -/
inductive LoadError
  | notFound
  | unreadable
  | malformed
  | invalid (problems : List Problem)
  deriving DecidableEq, Inhabited

/-- The list of problems as one text. -/
def LoadError.listing (problems : List Problem) : String :=
  "Configuration validation failed:\n" ++
    "\n".intercalate (problems.map fun p => s!"  - {p.message}")

/-- Refuses a configuration with problems. -/
def validate (c : Config) : Except LoadError Unit :=
  if c.problems = [] then .ok () else .error (.invalid c.problems)

end HomCircuit.Config
