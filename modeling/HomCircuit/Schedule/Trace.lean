import HomCircuit.Error

/-!
# HomCircuit.Schedule.Trace

What happened to the nodes of one call.

* `Placement` — where a node ran;
* `Trace` — nodes in the order they started and completed, those whose results were discarded, those
  never started, and one record for each that ran.
-/

namespace HomCircuit

/-- Where a node ran. -/
inductive Placement
  | cpu
  | accelerator (device : DeviceId)
  | simulation
  | remote (worker : Nat)
  deriving DecidableEq, Inhabited

/-- The name of a placement. -/
def Placement.label : Placement → String
  | .cpu => "CPU"
  | .accelerator device => s!"Accelerator({device.label})"
  | .simulation => "Simulation"
  | .remote worker => s!"Remote({worker})"

/-- How one node ran. -/
structure NodeRecord where
  node : NodeId
  placement : Placement
  /-- Whether a device failed and the processor took over. -/
  fellBack : Bool
  deriving DecidableEq, Inhabited

/-- What happened to the nodes of a call. -/
structure Trace where
  /-- Nodes in the order they were started. -/
  started : List NodeId := []
  /-- Nodes that gave a result, in the order they finished. -/
  completed : List NodeId := []
  /-- Those of them that finished after the call had failed. -/
  discarded : List NodeId := []
  /-- Live nodes that were never started. -/
  skipped : List NodeId := []
  /-- Nodes that no requested value depends on. -/
  elided : List NodeId := []
  failed : Option NodeId := none
  records : List NodeRecord := []
  fallbacks : Nat := 0
  peakLive : Nat := 0
  deriving DecidableEq, Inhabited

namespace Trace

/-- How many nodes ran. -/
def executed (t : Trace) : Nat := t.records.length

/-- A node starts. -/
def start (t : Trace) (n : NodeId) : Trace := { t with started := t.started ++ [n] }

/-- A node ran, with or without a result. -/
def record (t : Trace) (r : NodeRecord) : Trace :=
  { t with
    records := t.records ++ [r]
    fallbacks := t.fallbacks + if r.fellBack then 1 else 0 }

/-- A node gave a result, which may be discarded. -/
def finish (t : Trace) (r : NodeRecord) (discard : Bool) : Trace :=
  { t.record r with
    completed := t.completed ++ [r.node]
    discarded := t.discarded ++ if discard then [r.node] else [] }

/-- A node failed; the first one is kept. -/
def fail (t : Trace) (r : NodeRecord) : Trace :=
  { t.record r with failed := t.failed <|> some r.node }

end Trace

end HomCircuit
