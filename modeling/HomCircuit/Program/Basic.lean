import HomCircuit.Graph.Basic
import HomCircuit.Program.Artifact

/-!
# HomCircuit.Program.Basic

A program is an artifact that passed validation: registered partitions, a task graph, and the
values that go in and come out.

* `Program.load` — the program of an artifact, or the first thing that is wrong with it: a
  partition, a name, the graph, or an output.
-/

namespace HomCircuit

/-- A loaded program. -/
structure Program where
  name : String
  partitions : Registry
  graph : Graph
  inputs : List (ValueId × PartitionId)
  outputs : List ValueId
  deriving Inhabited

/-- The partition of an entry, with defaults for what is unset. -/
def PartitionEntry.toPartition (e : PartitionEntry) : Partition :=
  let base : Partition :=
    { name := e.name, lweDim := e.lweDim, glweDim := e.glweDim, polySize := e.polySize }
  { base with
    lweNoise := e.lweNoise.getD base.lweNoise
    glweNoise := e.glweNoise.getD base.glweNoise
    bootstrap := e.bootstrap.getD base.bootstrap
    keySwitch := e.keySwitch.getD base.keySwitch
    messageModulus := e.messageModulus.getD base.messageModulus
    carryModulus := e.carryModulus.getD base.carryModulus
    keyChoice := e.keyChoice.getD base.keyChoice }

namespace Program

/-- Registers the partitions of an artifact in order. -/
def registerAll : Registry → List PartitionEntry → Except RunError Registry
  | r, [] => .ok r
  | r, e :: rest =>
    match r.register e.toPartition with
    | .error e => .error (.ofKey e)
    | .ok (_, r) => registerAll r rest

/-- The number of a partition name. -/
def resolve (r : Registry) (name : String) : Except RunError PartitionId :=
  match r.idOf? name with
  | some id => .ok id
  | none => .error (.unknownPartition name)

/-- The operation of an entry. -/
def operation (r : Registry) : OperationEntry → Except RunError Operation
  | .add => .ok .add
  | .sub => .ok .sub
  | .neg => .ok .neg
  | .addPlain c => .ok (.addPlain c)
  | .mulPlain c => .ok (.mulPlain c)
  | .lookup t => .ok (.lookup t)
  | .changePartition source => (resolve r source).map .changePartition
  | .identity => .ok .identity

/-- The node of an entry. -/
def node (r : Registry) (e : NodeEntry) : Except RunError Node := do
  let op ← operation r e.op
  let partition ← resolve r e.partition
  .ok
    { id := ⟨e.id⟩, op, inputs := e.inputs.map ValueId.mk, output := ⟨e.output⟩, partition
      eligible := e.eligible.getD op.eligibleByDefault }

/-- The argument of an entry. -/
def argument (r : Registry) (e : InputEntry) : Except RunError (ValueId × PartitionId) :=
  (resolve r e.partition).map (⟨e.value⟩, ·)

/-- Refuses a program without outputs and one with an output that nothing produces. -/
def checkOutputs (name : String) (g : Graph) (outputs : List ValueId) : Except RunError Unit :=
  if outputs.isEmpty then .error (.invalidArtifact s!"program '{name}' requests no outputs")
  else
    match outputs.find? (fun v => (g.slot? v).isNone) with
    | some v => .error (.unknownValue v)
    | none => .ok ()

/-- The program of an artifact. -/
def load (a : Artifact) : Except RunError Program := do
  let partitions ← registerAll .empty a.partitions
  let nodes ← a.nodes.mapM (node partitions)
  let inputs ← a.inputs.mapM (argument partitions)
  let graph ← Graph.build nodes inputs
  let outputs := a.outputs.map ValueId.mk
  checkOutputs a.name graph outputs
  .ok { name := a.name, partitions, graph, inputs, outputs }

end Program

end HomCircuit
