import HomCircuit.Config.Load
import HomCircuit.Report.Context

/-!
# HomCircuit.Report.Config

Configurations as JSON reports: each part of one as the array of its values.
-/

namespace HomCircuit

/-- A configuration, part by part. -/
def Config.report (c : Config) : Json :=
  .record [
    ("runtime", .array [.ofNat c.scheduling.parallelism, .bool c.scheduling.deterministic,
      .bool c.scheduling.elide]),
    ("keys", .array [.ofNat c.keys.cacheCapacity, .ofNat c.keys.seed.secret.toNat,
      .ofNat c.keys.seed.encryption.toNat]),
    ("accelerator", .array [.bool c.accelerator.enabled, .ofNat c.accelerator.deviceCount,
      .ofNat c.accelerator.deviceMemory, .text c.accelerator.selection,
      .bool c.accelerator.cpuFallback]),
    ("simulation", .bool c.simulation),
    ("distributed", .array [.ofNat c.distribution.workers, .ofNat c.distribution.channelCapacity,
      .ofNat c.distribution.ackTimeout]),
    ("logging", .array [.text c.logging.level, .list .text c.logging.debugNames])]

/-- What a context is set up with. -/
def ContextOptions.report (o : ContextOptions) : Json :=
  .record [("mode", .text o.mode.label), ("parallelism", .ofNat o.parallelism),
    ("accelerator", .bool o.accelerator), ("simulation", .bool o.simulation),
    ("key_cache_capacity", .ofNat o.cacheCapacity), ("deterministic", .bool o.deterministic),
    ("elide", .bool o.elide),
    ("seed", .array [.ofNat o.seed.secret.toNat, .ofNat o.seed.encryption.toNat]),
    ("policy", .text o.policy.label), ("cpu_fallback", .bool o.cpuFallback),
    ("device_count", .ofNat o.deviceCount), ("device_memory", .ofNat o.deviceMemory),
    ("remote_workers", .ofNat o.remoteWorkers), ("channel_capacity", .ofNat o.channelCapacity),
    ("ack_timeout_ms", .ofNat o.ackTimeout)]

/-- Why there is no configuration. -/
def Config.LoadError.report : Config.LoadError → Json
  | .notFound => .record [("error", .text "FileNotFound")]
  | .unreadable => .record [("error", .text "IoError")]
  | .malformed => .record [("error", .text "ParseError")]
  | .invalid problems =>
    .record [("error", .text "ValidationError"), ("message", .text (listing problems))]

/-- What a context is set up with under a configuration, or why it cannot be. -/
def Config.optionsReport (c : Config) : Json :=
  match c.options with
  | .ok o => o.report
  | .error e => e.report

/-- The texts of a layer. -/
def Config.Layer.ofReport? (j : Json) : Option Config.Layer :=
  (j.mapOf? Json.text?).map fun texts => fun name => texts.lookup name

end HomCircuit
