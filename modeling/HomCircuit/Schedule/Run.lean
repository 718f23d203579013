import HomCircuit.Arena
import HomCircuit.Backend.Simulation
import HomCircuit.Schedule.Dispatch
import HomCircuit.Schedule.Resources
import HomCircuit.Schedule.Trace

/-!
# HomCircuit.Schedule.Run

The state of one call while its nodes run, and what a worker does with one node.

```
next → perform (reads inputs, runs on a backend) → release inputs → complete
```

* `Run.bind` — puts the arguments in their slots, in the representation of the backend;
* `perform` — the job that runs a node on the backend chosen for it;
* `retire` — the job that ends its reads and settles its result;
* `Run.finish` — collects the requested values and settles the trace.
-/

namespace HomCircuit

/-- What a call does not change. -/
structure Environment where
  partitions : Registry
  seed : KeySeed
  mode : Mode
  primitives : Primitives
  /-- Whether the processor takes over when a device fails. -/
  cpuFallback : Bool
  token : CancelToken
  deriving Inhabited

/-- How long primitives take, in milliseconds. -/
def Environment.duration (e : Environment) (calls : List PrimitiveCall) : Nat :=
  calls.foldl (fun time c => time + e.primitives.delay c.op) 0

/-- The partition with a number. -/
def Environment.partition (e : Environment) (id : PartitionId) : Except RunError Partition :=
  match e.partitions.get? id with
  | some p => .ok p
  | none => .error (.unknownPartition id.label)

/-- The state of one call. -/
structure Run where
  dispatch : Dispatch
  arena : Arena Buffer
  trace : Trace := {}
  resources : Resources
  deriving Inhabited

namespace Run

/-- Before anything happened. -/
def initial (p : Plan) (resources : Resources) : Run :=
  { dispatch := .initial p
    arena := .ofCounts ((List.range p.graph.slotCount).map p.consumers)
    resources }

/-! ## arguments -/

/-- A supplied value in the representation of the backend. -/
def representation (mode : Mode) (value : ValueId) (p : Partition) (v : Value) :
    Except RunError Value :=
  match mode, v with
  | .simulation, .cleartext message => .ok (.simulated (Simulation.encrypt p message))
  | .simulation, .simulated s => .ok (.simulated s)
  | .simulation, other => .error (.valueKind value "cleartext or simulated" other.kind)
  | _, .cleartext message => .ok (.ciphertext (trivialCiphertext p message))
  | _, .ciphertext words =>
    if words.length ≠ p.ciphertextLength then
      .error (.bufferShape s!"argument {value.label}" p.ciphertextLength words.length)
    else .ok (.ciphertext words)
  | _, other => .error (.valueKind value "ciphertext or cleartext" other.kind)

/-- The buffer of an argument. -/
def argument (e : Environment) (supplied : List (ValueId × Value)) (value : ValueId)
    (partition : PartitionId) : Except RunError Buffer :=
  match supplied.lookup value with
  | none => .error (.missingArgument value)
  | some v => do
    let p ← e.partition partition
    (representation e.mode value p v).map (.ofHost value partition)

/-- Puts the arguments that somebody reads in their slots, up to the first that does not fit. -/
def bind (e : Environment) (p : Plan) (supplied : List (ValueId × Value)) :
    List (ValueId × PartitionId) → Run → Except RunError Unit × Run
  | [], r => (.ok (), r)
  | (value, partition) :: rest, r =>
    match p.graph.slot? value with
    | none => (.error (.unknownValue value), r)
    | some slot =>
      if p.consumers slot = 0 then bind e p supplied rest r
      else
        match argument e supplied value partition with
        | .error err => (.error err, r)
        | .ok b => bind e p supplied rest { r with arena := (r.arena.store slot b).2 }

end Run

/-! ## one node -/

/-- A job whose failure is the failure of its node. -/
abbrev NodeJob (α : Type) : Type 1 := ExceptT RunError (Job Run) α

namespace NodeJob

/-- A section on the resources. -/
def onResources {α : Type} (act : Resources → α × Resources) : NodeJob α :=
  ExceptT.lift (Job.atomic fun r =>
    let (a, resources) := act r.resources
    (a, { r with resources }))

/-- A settled result. -/
def ofExcept {α : Type} (r : Except RunError α) : NodeJob α := ExceptT.mk (pure r)

/-- A section on the resources that may fail. -/
def tryResources {α : Type} (act : Resources → Except RunError α × Resources) : NodeJob α := do
  ofExcept (← onResources act)

/-- A result of primitives; a crash is a failure of the node. -/
def ofOutcome {α : Type} (n : Node) : Outcome RunError α → NodeJob α
  | .done a => ofExcept (.ok a)
  | .failed e => ofExcept (.error e)
  | .crashed text =>
    let reason := text.getD "unknown panic"
    ofExcept (.error (.nodeExecution n.id s!"panicked: {reason}"))

/-- Primitives are called. -/
def tell (calls : List PrimitiveCall) : NodeJob Unit := ExceptT.lift (Job.tell calls)

/-- Waits until the resources are ready. -/
def wait (ready : Resources → Bool) : NodeJob Unit :=
  ExceptT.lift (Job.wait fun (r : Run) => ready r.resources)

end NodeJob

section Perform

variable (e : Environment) (p : Plan)

/-- The buffers in some slots, read one by one. -/
def readInputs (n : Node) : List Nat → NodeJob (List Buffer)
  | [] => pure []
  | slot :: rest => do
    let b ← ExceptT.lift (Job.look fun (r : Run) => r.arena.get? slot)
    match b with
    | none =>
      .ofExcept (.error (.invalidGraph
        s!"{n.id.label} read {(p.graph.slotValues.getD slot default).label} before it was produced"))
    | some b => return b :: (← readInputs n rest)

/-- The words of the inputs, brought to the host where need be. -/
def hostCiphertexts : List Buffer → NodeJob (List Ciphertext)
  | [] => pure []
  | b :: rest => do
    match ← NodeJob.tryResources (Resources.toHost b) with
    | .ciphertext words => return words :: (← hostCiphertexts rest)
    | other => .ofExcept (.error (.valueKind b.value "ciphertext" other.kind))

/-- The partition that a change of partition starts from. -/
def sourcePartition (n : Node) : Except RunError (Option Partition) :=
  match n.op with
  | .changePartition source => (e.partition source).map some
  | _ => .ok none

/-- The keys of a node, fetched when it runs. -/
def keysFor (n : Node) (partition : Partition) : NodeJob OperationKeys := do
  let output ← NodeJob.tryResources (Resources.fetchKeys partition e.seed)
  match ← .ofExcept (sourcePartition e n) with
  | none => return { output }
  | some source =>
    return { output, input := some (← NodeJob.tryResources (Resources.fetchKeys source e.seed)) }

/-- Runs a node on the processor. -/
def runOnProcessor (n : Node) (partition : Partition) (inputs : List Buffer) : NodeJob Payload := do
  let words ← hostCiphertexts inputs
  let nonce := nodeNonce n.id words
  let keys ← keysFor e n partition
  NodeJob.tell [⟨n.op, nonce⟩]
  let out ← .ofOutcome n ((e.primitives.run n.op words keys nonce).mapError (nodeFailure n))
  return .host (.ciphertext out)

/-- Runs a node on stand-ins. -/
def runSimulated (n : Node) (partition : Partition) (inputs : List Buffer) : NodeJob Payload := do
  let stand ← inputs.mapM fun b =>
    match b.hostValue? with
    | some (.simulated s) => pure s
    | other => .ofExcept (.error (.valueKind b.value "simulated"
        (other.elim "device-resident" Value.kind)))
  let source ← .ofExcept (e.partition n.inputPartition)
  let out ← .ofOutcome n (Simulation.run n stand partition source)
  return .host (.simulated out)

/-- Runs a node on a device. Only inputs on the host contribute to its nonce. -/
def runOnDevice (i : Nat) (n : Node) (partition : Partition) (inputs : List Buffer) :
    NodeJob (Payload × DeviceId) := do
  let words := inputs.filterMap fun b => b.hostValue? >>= Value.ciphertext?
  let nonce := nodeNonce n.id words
  let keys ← keysFor e n partition
  let job := Inventory.operate n.op inputs keys nonce (p.isResident i)
  let inventory (r : Run) : Inventory := r.resources.inventory.getD default
  let withInventory (v : Inventory) (r : Run) : Run :=
    { r with resources := { r.resources with inventory := some v } }
  let out ← ExceptT.lift (job.within inventory withInventory)
  .ofOutcome n (out.mapError .device)

/-- Runs a node on a remote worker, which takes one delivery at a time, in the order in which nodes
queue up for it. -/
def runOnRemote (worker : Nat) (n : Node) (partition : Partition) (inputs : List Buffer) :
    NodeJob Payload := do
  let known ← NodeJob.onResources fun r => (decide (worker < r.remotes.length), r)
  if !known then .ofExcept (.error (.remote worker "no such worker"))
  let words ← hostCiphertexts inputs
  let nonce := nodeNonce n.id words
  let source ← .ofExcept (sourcePartition e n)
  let ticket ← NodeJob.onResources (Resources.queueUp worker)
  NodeJob.wait (Resources.mayUse worker ticket)
  let (result, calls) ← NodeJob.onResources
    (Resources.runRemote worker n partition source e.seed words nonce)
  NodeJob.tell calls
  NodeJob.onResources fun r => ((), r.leaveLink worker)
  return .host (.ciphertext (← .ofExcept result))

/-- Runs a node where it was decided to run; if a device fails, the processor may take over. -/
def runOn (target : Target) (i : Nat) (n : Node) (partition : Partition) (inputs : List Buffer) :
    Job Run (Except RunError Payload × Placement × Bool) := do
  match target with
  | .simulation => return (← (runSimulated e n partition inputs).run, .simulation, false)
  | .cpu => return (← (runOnProcessor e n partition inputs).run, .cpu, false)
  | .remote w => return (← (runOnRemote e w n partition inputs).run, .remote w, false)
  | .accelerator =>
    match ← (runOnDevice e p i n partition inputs).run with
    | .ok (payload, device) => return (.ok payload, .accelerator device, false)
    | .error err =>
      if err.isRecoverable && e.cpuFallback then
        Job.change fun r => { r with resources := r.resources.recordFallback }
        return (← (runOnProcessor e n partition inputs).run, .cpu, true)
      else return (.error err, .cpu, false)

/-- How a node ran, and the buffer that it gave. -/
structure Performed where
  result : Except RunError Buffer
  record : NodeRecord

/-- Runs a node: reads its inputs, chooses a backend, and runs the operation there. -/
def perform (i : Nat) : Job Run Performed := do
  let n := p.graph.node i
  let failed (err : RunError) : Performed := ⟨.error err, ⟨n.id, .cpu, false⟩⟩
  match e.partition n.partition with
  | .error err => return failed err
  | .ok partition =>
    match ← (readInputs p n (p.graph.inputsOf i)).run with
    | .error err => return failed err
    | .ok inputs =>
      let decision := choose n e.mode p.accelerating (p.worker? n)
      let (payload, placement, fellBack) ← runOn e p decision.target i n partition inputs
      return ⟨payload.map (⟨n.output, n.partition, ·⟩), ⟨n.id, placement, fellBack⟩⟩

end Perform

/-! ## the end of a node -/

namespace Run

/-- Ends one read of a slot. -/
def release (slot : Nat) (r : Run) : Run :=
  let (dropped, arena) := r.arena.release slot
  { r with arena, resources := r.resources.drop dropped }

/-- Settles the result of a node: it is stored unless the call has failed. -/
def complete (p : Plan) (i : Nat) (done : Performed) (r : Run) : Run :=
  match done.result with
  | .error err =>
    { r with
      dispatch := r.dispatch.fail err done.record.node
      trace := r.trace.fail done.record }
  | .ok b =>
    if r.dispatch.failure.isSome then
      { r with
        dispatch := r.dispatch.discard
        trace := r.trace.finish done.record true
        resources := r.resources.drop [b] }
    else
      let (dropped, arena) := r.arena.store (p.graph.outputSlot i) b
      { dispatch := r.dispatch.succeed p i
        arena
        trace := r.trace.finish done.record false
        resources := r.resources.drop dropped }

/-- A worker asks for a node. -/
def next (e : Environment) (p : Plan) (r : Run) : Turn × Run :=
  let (turn, dispatch) := r.dispatch.next p (r.resources.cancellation.isCancelled e.token)
  let r := { r with dispatch }
  match turn with
  | .start i => (turn, { r with trace := r.trace.start (p.graph.node i).id })
  | _ => (turn, r)

/-- Primitives were called by a job of this call. -/
def announce (e : Environment) (calls : List PrimitiveCall) (r : Run) : Run :=
  { r with resources := calls.foldl (Resources.announce e.primitives) r.resources }

end Run

/-- Ends reads one by one. -/
def releaseAll : List Nat → Job Run Unit
  | [] => return ()
  | slot :: rest => do
    Job.change (Run.release slot)
    releaseAll rest

/-- Ends the reads of a node and settles its result. -/
def retire (p : Plan) (i : Nat) (done : Performed) : Job Run Unit := do
  releaseAll (p.graph.inputsOf i)
  Job.change (Run.complete p i done)

/-! ## the end of the call -/

namespace Run

/-- Collects requested values in the host's representation, each of them its final read. -/
def collect : List (ValueId × Nat) → Run → Except RunError (List (ValueId × Value)) × Run
  | [], r => (.ok [], r)
  | (value, slot) :: rest, r =>
    match r.arena.take slot with
    | (none, arena) =>
      (.error (.invalidGraph s!"requested value {value.label} was never produced"), { r with arena })
    | (some b, arena) =>
      let (host, resources) := r.resources.toHost b
      let r := { r with arena, resources := resources.drop [b] }
      match host with
      | .error err => (.error err, r)
      | .ok v =>
        let (others, r) := collect rest r
        (others.map ((value, v) :: ·), r)

/-- Settles a call: the requested values, or why there are none, and the whole trace. -/
def finish (p : Plan) (bound : Except RunError Unit) (r : Run) :
    Except RunError (List (ValueId × Value)) × Trace × Resources :=
  let skipped := p.nodeIds fun i => p.isLive i && !r.dispatch.started.contains i
  let elided := p.nodeIds fun i => !p.isLive i
  let (result, r) : Except RunError (List (ValueId × Value)) × Run :=
    match bound, r.dispatch.failure with
    | .error err, _ => (.error err, r)
    | .ok (), some failure =>
      (.error (.graphCancelled failure.error failure.node skipped.length), r)
    | .ok (), none => collect p.requested r
  let trace := { r.trace with skipped, elided, peakLive := r.arena.counters.peakLive }
  (result, trace, r.resources.drop r.arena.clear.1)

end Run

end HomCircuit
