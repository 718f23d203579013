import HomCircuit.Report.Graph
import HomCircuit.Program.Basic

/-!
# HomCircuit.Report.Program

Loaded programs as JSON reports.

* `Program.report` — partitions, arguments, outputs, nodes and dispatch order.
-/

namespace HomCircuit

/-- What a program consists of. -/
def Program.report (p : Program) : Json :=
  .record [("name", .text p.name), ("inputs", .list argumentReport p.inputs),
    ("outputs", .list (fun v : ValueId => .nat v.index.toNat) p.outputs),
    ("partitions", .list
      (fun (id, q) => .array [.nat id.index.toNat, .text q.name, .ofWord q.fingerprint])
      p.partitions.toList),
    ("nodes", .list Node.report p.graph.nodes.toList),
    ("order", .nats (p.graph.dispatchOrder fun _ => true))]

end HomCircuit
