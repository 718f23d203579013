import HomCircuit.Context.Call
import HomCircuit.Report.Device
import HomCircuit.Report.Program
import HomCircuit.Report.Remote

/-!
# HomCircuit.Report.Context

Calls and contexts as JSON reports.

* `Trace.report` — all of a trace; `Trace.summary` — what does not depend on the order in which
  several workers took turns;
* `Context.report` — mode, workers and cached keys;
* `ContextOptions.ofReport?`, `CallChoice.ofReport?`, `Primitives.ofReport?`.
-/

namespace HomCircuit

/-- A node by its number. -/
def NodeId.report (n : NodeId) : Json := .nat n.index.toNat

/-- How one node ran. -/
def NodeRecord.report (r : NodeRecord) : Json :=
  .array [r.node.report, .text r.placement.label, .bool r.fellBack]

/-- All of a trace. -/
def Trace.report (t : Trace) : Json :=
  let nodes := Json.list NodeId.report
  .record [("started", nodes t.started), ("completed", nodes t.completed),
    ("discarded", nodes t.discarded), ("skipped", nodes t.skipped), ("elided", nodes t.elided),
    ("failed", .maybe NodeId.report t.failed), ("fallbacks", .nat t.fallbacks),
    ("peak", .nat t.peakLive), ("executed", .nat t.executed),
    ("records", .list NodeRecord.report t.records)]

/-- What does not depend on turns; the order of starting only if it is fixed. -/
def Trace.summary (t : Trace) (deterministic : Bool) : Json :=
  let sorted := (t.completed.map (·.index.toNat)).mergeSort (· ≤ ·)
  .record ([("completed_sorted", .nats sorted), ("elided", .list NodeId.report t.elided),
    ("executed", .nat t.executed)] ++
    if deterministic then [("started", .list NodeId.report t.started)] else [])

/-- The end of a call as its values or its error, with the whole trace. -/
def callReport (result : Except RunError (List Value)) (t : Trace) : Json :=
  match result with
  | .ok values => .record [("values", .list Value.report values), ("trace", t.report)]
  | .error e => .record (e.members ++ [("trace", t.report)])

/-- The end of a call as far as it does not depend on turns. -/
def callSummary (result : Except RunError (List Value)) (t : Trace) (deterministic : Bool) : Json :=
  match result with
  | .ok values =>
    .record [("values", .list Value.report values), ("trace", t.summary deterministic)]
  | .error e => .record [("error", .text e.kind), ("root", e.rootCause.report)]

/-- What a context consists of. -/
def Context.report (c : Context) : Json :=
  .record [("mode", .text c.mode.label), ("workers", .maybe .ofNat c.workers?),
    ("remotes", .nat c.resources.remotes.length), ("capacity", .ofNat c.resources.keys.capacity),
    ("cached", .nat c.resources.keys.size)]

/-- What a context counts about keys; several workers may count the same hits differently. -/
def Context.keyReport (c : Context) (whole : Bool) : Json :=
  let n := c.resources.keys.counters
  .record ([("generations", .nat n.generations), ("cached", .nat c.resources.keys.size)] ++
    if whole then
      [("hits", .nat n.hits), ("misses", .nat n.misses), ("evictions", .nat n.evictions)]
    else [])

/-- A call of a primitive by name and nonce. -/
def PrimitiveCall.report (c : PrimitiveCall) : Json :=
  .array [.text c.op.name, .ofWord c.nonce]

/-! ## reading -/

/-- Options from their members, each with its default; there is one worker unless said otherwise.
The inner error is for a policy that does not exist. -/
def ContextOptions.ofReport? (j : Json) : Option (Except RunError ContextOptions) := do
  let base : ContextOptions := { parallelism := 1 }
  let given : ContextOptions :=
    { parallelism := ← j.withDefault "parallelism" Json.nat? base.parallelism
      accelerator := ← j.withDefault "accelerator" Json.bool? base.accelerator
      simulation := ← j.withDefault "simulation" Json.bool? base.simulation
      cacheCapacity := ← j.withDefault "key_cache_capacity" Json.nat? base.cacheCapacity
      deterministic := ← j.withDefault "deterministic" Json.bool? base.deterministic
      elide := ← j.withDefault "elide" Json.bool? base.elide
      seed := ← j.withDefault "seed" KeySeed.ofReport? base.seed
      cpuFallback := ← j.withDefault "cpu_fallback" Json.bool? base.cpuFallback
      deviceCount := ← j.withDefault "device_count" Json.nat? base.deviceCount
      deviceMemory := ← j.withDefault "device_memory" Json.nat? base.deviceMemory
      remoteWorkers := ← j.withDefault "remote_workers" Json.nat? base.remoteWorkers
      channelCapacity := ← j.withDefault "channel_capacity" Json.nat? base.channelCapacity }
  match ← j.optional "policy" Json.text? with
  | none => some (.ok given)
  | some name => some ((SelectionPolicy.parse name).map fun policy => { given with policy })

/-- Nodes by number, with the workers that they are assigned to. -/
def assignment? (j : Json) : Option (List (NodeId × Nat)) := do
  (← j.mapOf? Json.nat?).mapM fun (node, worker) => do
    let number ← (Text.decimal? node.toList).filter (· < UInt32.size)
    some (⟨UInt32.ofNat number⟩, worker)

/-- The choices of a caller; tokens are found by name. -/
def CallChoice.ofReport? (token? : String → Option CancelToken) (j : Json) : Option CallChoice := do
  some
    { outputs := (← j.optional "outputs" (·.listOf? Json.word32?)).map (·.map ValueId.mk)
      deterministic := ← j.optional "deterministic" Json.bool?
      assignment := ← j.withDefault "remote" assignment? []
      token := ← j.optional "token" (fun n => n.text? >>= token?) }

/-- The reference primitives, except that some operations are slow, fail, crash or cancel. -/
def Primitives.ofReport? (j : Json) : Option Primitives := do
  let among (key : String) := j.withDefault key (·.listOf? Json.text?) []
  let slow ← j.withDefault "slow" (·.mapOf? Json.nat?) []
  let cancel ← among "cancel"
  let cancelContext ← among "cancel_context"
  let text ← among "panic_str"
  let named ← among "panic_string"
  let other ← among "panic_other"
  let fail ← among "fail"
  some
    { name := "hooked"
      run op inputs keys nonce :=
        if text.contains op.name then .crashed (some "primitive exploded")
        else if named.contains op.name then .crashed (some s!"primitive {op.name} exploded")
        else if other.contains op.name then .crashed none
        else if fail.contains op.name then .failed (.missingKeys "hook")
        else Primitives.reference.run op inputs keys nonce
      signals op :=
        (if cancel.contains op.name then [.cancelHanded] else []) ++
          if cancelContext.contains op.name then [.cancelInFlight] else []
      delay op := (slow.lookup op.name).getD 0 }

end HomCircuit
