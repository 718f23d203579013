import HomCircuit.Backend.Mode
import HomCircuit.Graph.Liveness
import HomCircuit.Program.Basic

/-!
# HomCircuit.Schedule.Plan

What one call is going to do, settled before anything runs.

* `CallOptions` — what a caller may choose for one call;
* `Plan.prepare` — the plan of a call, refused only for a requested value that the graph does not
  have;
* `Plan.consumers` — how many reads each value is kept for: one for every edge into a live node, and
  one if it was requested;
* `Plan.isResident` — whether the output of a node stays on its device.
-/

namespace HomCircuit

/-- What a caller may choose for one call of a graph. -/
structure CallOptions where
  requested : List ValueId
  /-- Whether nodes start in the dispatch order of the graph. -/
  deterministic : Bool := false
  /-- Whether nodes that no requested value depends on are left out. -/
  elide : Bool := true
  /-- Nodes that run on a remote worker, with the worker. -/
  assignment : List (NodeId × Nat) := []
  deriving Inhabited

/-- What one call is going to do. -/
structure Plan where
  graph : Graph
  options : CallOptions
  /-- The requested values with their slots, each once. -/
  requested : List (ValueId × Nat)
  /-- One mark a node: whether it is going to run. -/
  live : List Bool
  /-- The order in which nodes start, if it is fixed. -/
  order : List Nat
  /-- Whether nodes may run on a device. -/
  accelerating : Bool
  deriving Inhabited

namespace Plan

/-- The requested values with their slots, each once, or the error of the first that is unknown. -/
def resolve (g : Graph) : List (ValueId × Nat) → List ValueId →
    Except RunError (List (ValueId × Nat))
  | found, [] => .ok found
  | found, v :: rest =>
    match g.slot? v with
    | none => .error (.unknownValue v)
    | some slot =>
      resolve g (if found.any (·.2 == slot) then found else found ++ [(v, slot)]) rest

/-- The plan of a call. -/
def prepare (g : Graph) (options : CallOptions) (accelerating : Bool) : Except RunError Plan :=
  (resolve g [] options.requested).map fun requested =>
    let live :=
      if options.elide then g.liveNodes (requested.map (·.2)) else List.replicate g.size true
    { graph := g, options, requested, live, accelerating
      order := if options.deterministic then g.dispatchOrder fun i => live.getD i false else [] }

variable (p : Plan)

/-- The slots of the requested values. -/
def requestedSlots : List Nat := p.requested.map (·.2)

/-- Whether a node is going to run. -/
def isLive (i : Nat) : Bool := p.live.getD i false

/-- The nodes that are going to run, by index. -/
def liveIndices : List Nat := (List.range p.graph.size).filter p.isLive

/-- How many reads a slot is kept for. -/
def consumers (slot : Nat) : Nat :=
  (p.liveIndices.map fun i => (p.graph.inputsOf i).count slot).foldr (· + ·) 0 + p.requestedSlots.count slot

/-- The worker that a node is assigned to. -/
def worker? (n : Node) : Option Nat := p.options.assignment.lookup n.id

/-- Whether a node may run on a device. -/
def maySendToDevice (i : Nat) : Bool :=
  (p.graph.node i).eligible && (p.worker? (p.graph.node i)).isNone

/-- Whether the output of a node stays on its device: nobody asked for it, and all live nodes that
read it may run on a device too. -/
def isResident (i : Nat) : Bool :=
  p.accelerating && p.isLive i && p.maySendToDevice i &&
    !p.requestedSlots.contains (p.graph.outputSlot i) &&
    ((p.graph.dependentsOf i).filter p.isLive).all p.maySendToDevice

/-- The numbers of the nodes at some indices. -/
def nodeIds (keep : Nat → Bool) : List NodeId :=
  ((List.range p.graph.size).filter keep).map fun i => (p.graph.node i).id

end Plan

end HomCircuit
