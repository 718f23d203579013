import HomCircuit.Report.Error
import HomCircuit.Graph.Liveness
import HomCircuit.Value

/-!
# HomCircuit.Report.Graph

Operations, nodes, graphs and values as JSON reports.

```
operation   "add"  ["add_plain", 3]  ["lut", [0, 1]]  ["change", 2]
node        id, kind, inputs, output, partition, eligible
value       clear, cipher, zeros or sim
```

* `Operation.report`, `Operation.ofReport?`, `Node.report`, `Node.ofReport?`;
* `Graph.report` — the wiring of a graph and its dispatch order;
* `Value.report`, `Value.ofReport?`.
-/

namespace HomCircuit

open Json (ofNat ofWord ofFloat)

/-- An operation as its name, or as a pair of name and constant. -/
def Operation.report : Operation → Json
  | .addPlain c => .array [.text "add_plain", ofNat c.toNat]
  | .mulPlain c => .array [.text "mul_plain", ofNat c.toNat]
  | .lookup t => .array [.text "lut", .list (fun c : UInt64 => ofNat c.toNat) t]
  | .changePartition p => .array [.text "change", .nat p.index.toNat]
  | op => .text op.name

/-- The operation that a report describes. -/
def Operation.ofReport? : Json → Option Operation
  | .string (some "add") => some .add
  | .string (some "sub") => some .sub
  | .string (some "neg") => some .neg
  | .string (some "identity") => some .identity
  | .array [.string (some "add_plain"), c] => c.word64?.map .addPlain
  | .array [.string (some "mul_plain"), c] => c.word64?.map .mulPlain
  | .array [.string (some "lut"), t] => (t.listOf? Json.word64?).map .lookup
  | .array [.string (some "change"), p] => p.word32?.map fun i => .changePartition ⟨i⟩
  | _ => none

/-- The members of a node. -/
def Node.report (n : Node) : Json :=
  .record [("id", .nat n.id.index.toNat), ("kind", n.op.report),
    ("inputs", .list (fun v : ValueId => .nat v.index.toNat) n.inputs),
    ("output", .nat n.output.index.toNat), ("partition", .nat n.partition.index.toNat),
    ("eligible", .bool n.eligible), ("input_partition", .nat n.inputPartition.index.toNat)]

/-- The node that members describe. -/
def Node.ofReport? (j : Json) : Option Node := do
  let op ← j.field "kind" Operation.ofReport?
  some
    { id := ⟨← j.field "id" Json.word32?⟩
      op
      inputs := (← j.field "inputs" (·.listOf? Json.word32?)).map ValueId.mk
      output := ⟨← j.field "output" Json.word32?⟩
      partition := ⟨← j.withDefault "partition" Json.word32? 0⟩
      eligible := ← j.withDefault "eligible" Json.bool? op.eligibleByDefault }

/-- A value with the partition that it belongs to. -/
def argumentReport (a : ValueId × PartitionId) : Json :=
  .nats [a.1.index.toNat, a.2.index.toNat]

/-- The wiring of a graph and the dispatch order of all of it. -/
def Graph.report (g : Graph) : Json :=
  let perNode {α : Type} (write : α → Json) (f : Nat → α) := Json.list (write ∘ f) (List.range g.size)
  let slot (s : Nat) : Json :=
    .array [.nat (g.slotValues.getD s default).index.toNat, .nat (g.slotPartition s).index.toNat,
      .maybe .nat (g.producer? s)]
  .record [("nodes", perNode .nat fun i => (g.node i).id.index.toNat),
    ("slots", .list slot (List.range g.slotCount)), ("input_slots", perNode .nats g.inputsOf),
    ("output_slots", perNode .nat g.outputSlot), ("dependents", perNode .nats g.dependentsOf),
    ("dependency_counts", perNode .nat g.dependencyCount),
    ("arguments", .list argumentReport g.arguments.toList), ("empty", .bool (g.size == 0)),
    ("order", .nats (g.dispatchOrder fun _ => true))]

/-- A value as an object with one member. -/
def Value.report : Value → Json
  | .ciphertext ws => .record [("cipher", Ciphertext.report ws)]
  | .cleartext c => .record [("clear", ofNat c.toNat)]
  | .simulated s => .record [("sim", .array [ofNat s.shadow.toNat, ofFloat s.variance])]

/-- The value that a report describes; `zeros` is a ciphertext of that many zero words. -/
def Value.ofReport? (j : Json) : Option Value :=
  match j with
  | .object [(some "clear", c)] => c.word64?.map .cleartext
  | .object [(some "cipher", ws)] => (ws.listOf? Json.word?).map .ciphertext
  | .object [(some "zeros", n)] => n.nat?.map fun n => .ciphertext (List.replicate n 0)
  | .object [(some "sim", s)] =>
    (s.pairOf? Json.word64? Json.real?).map fun (shadow, v) => .simulated ⟨shadow, v.toFloat⟩
  | _ => none

/-- Equality of values, with variances compared as numbers. -/
def Value.same : Value → Value → Bool
  | .ciphertext a, .ciphertext b => a == b
  | .cleartext a, .cleartext b => a == b
  | .simulated a, .simulated b => a.shadow == b.shadow && a.variance == b.variance
  | _, _ => false

end HomCircuit
