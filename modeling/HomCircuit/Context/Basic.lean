import HomCircuit.Context.Options
import HomCircuit.Schedule.Timeline

/-!
# HomCircuit.Context.Basic

A context: keys, devices and remote workers that calls share, and partitions of its own.

* `Context.create` — a context with emulated devices, or with the devices given; `Context.start`
  also sees whether its remote workers can start;
* `Context.execute` — one call of a graph;
* `Context.runOp` — one operation on values of a registered partition;
* `Context.cancelInFlight`, `Context.shutDown`.
-/

namespace HomCircuit

/-- What calls share. -/
structure Context where
  options : ContextOptions
  primitives : Primitives
  /-- Partitions registered with the context itself. -/
  partitions : Registry := .empty
  resources : Resources
  shut : Bool := false
  deriving Inhabited

namespace Context

/-- Emulated devices that call the primitives of the context. -/
def emulatedDevices (o : ContextOptions) (ps : Primitives) : List Device :=
  (List.range o.deviceCount).map fun i =>
    { id := ⟨UInt32.ofNat i⟩, capacity := o.deviceMemory, primitives := ps, recorded := true }

/-- The devices of a context that uses them. -/
def inventory? (o : ContextOptions) (ps : Primitives) (devices : List Device) : Option Inventory :=
  if o.mode = .accelerator then
    let chosen := if devices.isEmpty then emulatedDevices o ps else devices
    some { devices := chosen.toArray, policy := o.policy }
  else none

/-- What remote workers of a context are set up with. -/
def remoteOptions (o : ContextOptions) (ps : Primitives) : RemoteOptions :=
  { primitives := ps, cacheCapacity := o.cacheCapacity, channelCapacity := o.channelCapacity
    ackTimeout := o.ackTimeout }

/-- A fresh context. Devices that are given take the place of emulated ones. -/
def create (o : ContextOptions) (ps : Primitives) (devices : List Device) :
    Except RunError Context :=
  o.validate.map fun _ =>
    { options := o
      primitives := ps
      resources :=
        { keys := .empty o.cacheCapacity
          inventory := inventory? o ps devices
          remotes := (List.range o.remoteWorkers).map fun i =>
            .spawn i s!"remote-{i}" (remoteOptions o ps) } }

/-- A fresh context, whose making crashes where its remote workers cannot start. -/
def start (o : ContextOptions) (ps : Primitives) (devices : List Device) :
    Outcome RunError Context :=
  match create o ps devices with
  | .error e => .failed e
  | .ok c =>
    if c.resources.remotes.all fun w => RemoteWorker.canStart w.name w.options then .done c
    else .crashed (some "capacity overflow")

/-! ## views -/

/-- What the context runs on. -/
def mode (c : Context) : Mode := c.options.mode

/-- Number of workers, unless it depends on the machine. -/
def workers? (c : Context) : Option Nat :=
  if c.options.parallelism ≠ 0 then some c.options.parallelism
  else (c.resources.inventory.map (·.devices.size)).filter (0 < ·)

/-- Changes what calls share. -/
def withResources {α : Type} (act : Resources → α × Resources) (c : Context) : α × Context :=
  let (a, resources) := act c.resources
  (a, { c with resources })

/-- The keys of a partition under the context's seed. -/
def keySet (p : Partition) (c : Context) : Except RunError KeySet × Context :=
  c.withResources (Resources.fetchKeys p c.options.seed)

/-- Registers a partition with the context. -/
def register (p : Partition) (c : Context) : Except RunError PartitionId × Context :=
  let (answer, partitions) := c.partitions.enroll p
  (answer.mapError .ofKey, { c with partitions })

/-! ## cancellation -/

/-- Changes the cancellations of the context. -/
def withCancellation {α : Type} (act : Cancellation → α × Cancellation) (c : Context) :
    α × Context :=
  c.withResources fun r =>
    let (a, cancellation) := act r.cancellation
    (a, { r with cancellation })

/-- A token that observes the context. -/
def token (c : Context) : CancelToken × Context := c.withCancellation Cancellation.issue

/-- A token that observes no context. -/
def freeToken (c : Context) : CancelToken × Context := c.withCancellation Cancellation.issueFree

/-- Cancels a token and its copies. -/
def cancel (t : CancelToken) (c : Context) : Context :=
  (c.withCancellation fun s => ((), s.raise t)).2

/-- Cancels every call that is running; later calls are not affected. -/
def cancelInFlight (c : Context) : Context :=
  (c.withCancellation fun s => ((), s.advance)).2

/-- A call begins, with or without a token of its caller. -/
def handOver (t : Option CancelToken) (c : Context) : Context :=
  (c.withCancellation fun s => ((), s.handOver t)).2

/-- Whether a token is cancelled. -/
def isCancelled (c : Context) (t : CancelToken) : Bool := c.resources.cancellation.isCancelled t

/-- Ends the context: calls are cancelled, remote workers end and keys are dropped. -/
def shutDown (c : Context) : Context :=
  if c.shut then c
  else
    let c := c.cancelInFlight
    { c with
      shut := true
      resources := { c.resources with remotes := [], keys := c.resources.keys.clear.2 } }

/-! ## calls -/

/-- What a call in this context does not change. -/
def environment (c : Context) (partitions : Registry) (t : CancelToken) : Environment :=
  { partitions, seed := c.options.seed, mode := c.mode, primitives := c.primitives
    cpuFallback := c.options.cpuFallback, token := t }

/-- One call of a graph whose partitions are registered in `partitions`. -/
def execute (g : Graph) (partitions : Registry) (supplied : List (ValueId × Value))
    (o : CallOptions) (t : CancelToken) (c : Context) :
    Except RunError (List (ValueId × Value)) × Trace × Context :=
  if c.shut then (.error .contextShutDown, {}, c)
  else
    match Plan.prepare g o (c.mode = .accelerator && c.resources.hasDevices) with
    | .error e => (.error e, {}, c)
    | .ok p =>
      let (result, trace, resources) :=
        p.execute (c.environment partitions t) (c.workers?.getD 1) supplied c.resources
      (result, trace, { c with resources })

/-- One operation as a graph with one node, whose inputs are numbered from zero. -/
def operationGraph (op : Operation) (partition : PartitionId) (arity : Nat) :
    Except RunError Graph :=
  let values := (List.range arity).map fun i => (⟨UInt32.ofNat i⟩ : ValueId)
  let n : Node :=
    { id := ⟨0⟩, op, inputs := values, output := ⟨UInt32.ofNat arity⟩, partition
      eligible := op.eligibleByDefault }
  Graph.build [n] (values.map (·, n.inputPartition))

/-- One operation on values of a registered partition. -/
def runOp (op : Operation) (partition : PartitionId) (inputs : List Value) (c : Context) :
    Except RunError Value × Context :=
  match operationGraph op partition inputs.length with
  | .error e => (.error e, c)
  | .ok g =>
    let output : ValueId := ⟨UInt32.ofNat inputs.length⟩
    let supplied := inputs.zipIdx.map fun (v, i) => ((⟨UInt32.ofNat i⟩ : ValueId), v)
    let (t, c) := c.token
    let (result, _, c) := c.execute g c.partitions supplied
      { requested := [output], deterministic := true } t
    (result.bind fun values =>
      match values.lookup output with
      | some v => .ok v
      | none => .error (.unknownValue output), c)

end Context

end HomCircuit
