import HomCircuit.Error

/-!
# HomCircuit.Graph.Basic

A task graph: operations in order of their numbers, wired through value slots.

```
slots          arguments first, then the output of each node
input slots    per node, the slot of each value that it reads
dependents     per node, a consumer for every edge that reads its output
```

* `Graph.build` — the graph of some nodes and arguments, or the first fault in a fixed order of
  checks;
* `GraphFault` — the faults and their texts.
-/

namespace HomCircuit

/-- A validated task graph. The place of a node in `nodes` is its index. -/
structure Graph where
  /-- The nodes in order of their numbers. -/
  nodes : Array Node
  /-- The values that a caller supplies, with their partitions. -/
  arguments : Array (ValueId × PartitionId)
  /-- The value in each slot. -/
  slotValues : Array ValueId
  /-- The slots that each node reads. -/
  inputSlots : Array (List Nat)
  /-- A consumer of each node for every edge from it. -/
  dependents : Array (List Nat)
  deriving Inhabited

/-- Why nodes and arguments make no graph. -/
inductive GraphFault
  | duplicateNode (id : NodeId)
  | arity (n : Node)
  | duplicateArgument (value : ValueId)
  | alreadyProduced (value : ValueId) (node : NodeId) (producer : Option NodeId)
  | unknownInput (value : ValueId)
  | partitionMismatch (node : NodeId) (value : ValueId) (found expected : PartitionId)
  | cycle
  deriving DecidableEq

/-- The error that a fault is reported as. -/
def GraphFault.error : GraphFault → RunError
  | .duplicateNode id => .invalidGraph s!"duplicate node id {id.label}"
  | .arity n =>
    .invalidGraph
      s!"node {n.id.label} ({n.op.name}) has {n.inputs.length} inputs, expected {n.op.arity}"
  | .duplicateArgument value => .invalidGraph s!"argument {value.label} declared twice"
  | .alreadyProduced value node producer =>
    let by_ := match producer with
      | some id => s!"node {id.label}"
      | none => "a program argument"
    .invalidGraph s!"value {value.label} produced by node {node.label} is already produced by {by_}"
  | .unknownInput value => .unknownValue value
  | .partitionMismatch node value found expected =>
    .invalidGraph
      s!"node {node.label} reads {value.label} from {found.label} but expects {expected.label}"
  | .cycle => .invalidGraph "graph contains a cycle"

namespace Graph

/-! ## views -/

/-- Number of nodes. -/
def size (g : Graph) : Nat := g.nodes.size

/-- Number of slots. -/
def slotCount (g : Graph) : Nat := g.slotValues.size

/-- The slot of a value. -/
def slot? (g : Graph) (v : ValueId) : Option Nat := g.slotValues.findIdx? (· == v)

/-- The index of the node that fills a slot; arguments have none. -/
def producer? (g : Graph) (slot : Nat) : Option Nat :=
  if slot < g.arguments.size then none
  else if slot < g.arguments.size + g.size then some (slot - g.arguments.size)
  else none

/-- The slot that a node fills. -/
def outputSlot (g : Graph) (i : Nat) : Nat := g.arguments.size + i

/-- The partition of the value in a slot. -/
def slotPartition (g : Graph) (slot : Nat) : PartitionId :=
  match g.producer? slot with
  | some i => (g.nodes.getD i default).partition
  | none => (g.arguments.getD slot default).2

/-- The node at an index. -/
def node (g : Graph) (i : Nat) : Node := g.nodes.getD i default

/-- The index of the node with a number. -/
def indexOf? (g : Graph) (id : NodeId) : Option Nat := g.nodes.findIdx? (·.id == id)

/-- The node with a number. -/
def find? (g : Graph) (id : NodeId) : Option Node := g.nodes.find? (·.id == id)

/-- The slots that a node reads. -/
def inputsOf (g : Graph) (i : Nat) : List Nat := g.inputSlots.getD i []

/-- The consumers of a node, one for every edge. -/
def dependentsOf (g : Graph) (i : Nat) : List Nat := g.dependents.getD i []

/-- The nodes that a node reads from, one for every edge. -/
def producersOf (g : Graph) (i : Nat) : List Nat := (g.inputsOf i).filterMap g.producer?

/-- How many edges from other nodes a node waits for. -/
def dependencyCount (g : Graph) (i : Nat) : Nat := (g.producersOf i).length

/-! ## dispatch order -/

/-- Puts an index in its place in an ascending list. -/
def insertAscending (i : Nat) : List Nat → List Nat
  | [] => [i]
  | j :: rest => if i ≤ j then i :: j :: rest else j :: insertAscending i rest

/-- What a topological sort has left: the edges each node still waits for, and the indices that
wait for none, in ascending order. -/
structure Sorting where
  pending : Array Nat
  ready : List Nat

/-- An edge from a finished node is resolved; the last one makes a live consumer ready. -/
def resolveEdge (live : Nat → Bool) (s : Sorting) (dependent : Nat) : Sorting :=
  let left := s.pending.getD dependent 0 - 1
  let pending := s.pending.setIfInBounds dependent left
  if left = 0 ∧ live dependent then
    { pending, ready := insertAscending dependent s.ready }
  else { s with pending }

/-- Takes the least ready index as often as there is one. -/
def sortFrom (g : Graph) (live : Nat → Bool) : Nat → Sorting → List Nat
  | 0, _ => []
  | fuel + 1, s =>
    match s.ready with
    | [] => []
    | i :: rest =>
      i :: sortFrom g live fuel
        ((g.dependentsOf i).foldl (resolveEdge live) { s with ready := rest })

/-- Live nodes whose producers, live or not, all come first, the least index first wherever there
is a choice. -/
def dispatchOrder (g : Graph) (live : Nat → Bool) : List Nat :=
  let pending := (Array.range g.size).map g.dependencyCount
  let ready := (List.range g.size).filter fun i => live i && g.dependencyCount i == 0
  sortFrom g live g.size { pending, ready }

/-! ## construction -/

/-- Nodes in order of their numbers, equal numbers in the order given. -/
def sortNodes (nodes : List Node) : List Node := nodes.mergeSort fun a b => a.id.index ≤ b.id.index

/-- The first node that repeats a number or has the wrong number of inputs. -/
def nodeFault? : List Node → Option GraphFault
  | [] => none
  | n :: rest =>
    if n.inputs.length ≠ n.op.arity then some (.arity n)
    else
      match rest with
      | m :: _ => if m.id = n.id then some (.duplicateNode m.id) else nodeFault? rest
      | [] => none

/-- The first argument that repeats a value of `seen`. -/
def argumentFault? : List ValueId → List (ValueId × PartitionId) → Option GraphFault
  | _, [] => none
  | seen, (v, _) :: rest =>
    if v ∈ seen then some (.duplicateArgument v) else argumentFault? (v :: seen) rest

/-- The first node whose output already has a producer. -/
def outputFault? (arguments : List (ValueId × PartitionId)) :
    List Node → List Node → Option GraphFault
  | _, [] => none
  | before, n :: rest =>
    match before.find? (·.output == n.output) with
    | some m => some (.alreadyProduced n.output n.id (some m.id))
    | none =>
      if arguments.any (·.1 == n.output) then some (.alreadyProduced n.output n.id none)
      else outputFault? arguments (before ++ [n]) rest

/-- The first input of a node that is unknown or from another partition. -/
def inputFault? (g : Graph) (n : Node) : List ValueId → Option GraphFault
  | [] => none
  | v :: rest =>
    match g.slot? v with
    | none => some (.unknownInput v)
    | some slot =>
      if g.slotPartition slot ≠ n.inputPartition then
        some (.partitionMismatch n.id v (g.slotPartition slot) n.inputPartition)
      else inputFault? g n rest

/-- The first faulty input of any node. -/
def firstInputFault? (g : Graph) : List Node → Option GraphFault
  | [] => none
  | n :: rest => inputFault? g n n.inputs <|> firstInputFault? g rest

/-- Adds a consumer for every edge into a node. -/
def addConsumer (g : Graph) (dependents : Array (List Nat)) (i : Nat) : Array (List Nat) :=
  (g.producersOf i).foldl (fun d p => d.modify p (· ++ [i])) dependents

/-- The wiring of sorted nodes and arguments, before the edges are checked. -/
def wire (nodes : List Node) (arguments : List (ValueId × PartitionId)) : Graph :=
  let bare : Graph :=
    { nodes := nodes.toArray
      arguments := arguments.toArray
      slotValues := (arguments.map (·.1) ++ nodes.map (·.output)).toArray
      inputSlots := #[]
      dependents := #[] }
  let wired := { bare with inputSlots := bare.nodes.map fun (n : Node) => n.inputs.filterMap bare.slot? }
  { wired with
    dependents :=
      (List.range wired.size).foldl wired.addConsumer (Array.replicate wired.size []) }

/-- The first fault of nodes and arguments: numbers and arities, then arguments, outputs, inputs,
and last a cycle. -/
def fault? (nodes : List Node) (arguments : List (ValueId × PartitionId)) : Option GraphFault :=
  let g := wire nodes arguments
  nodeFault? nodes
  <|> argumentFault? [] arguments
  <|> outputFault? arguments [] nodes
  <|> firstInputFault? g nodes
  <|> if (g.dispatchOrder fun _ => true).length = g.size then none else some .cycle

/-- The graph of some nodes, in any order, and arguments. -/
def build (nodes : List Node) (arguments : List (ValueId × PartitionId)) : Except RunError Graph :=
  let nodes := sortNodes nodes
  match fault? nodes arguments with
  | some fault => .error fault.error
  | none => .ok (wire nodes arguments)

end Graph

end HomCircuit
