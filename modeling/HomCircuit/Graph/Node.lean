import HomCircuit.Partition.Registry

/-!
# HomCircuit.Graph.Node

The operations of a circuit and the nodes that carry them.

* `Operation` — the eight kinds of operation, with `Operation.arity` and `Operation.name`;
* `Node` — one operation with the values it reads and the value it makes;
* `Node.inputPartition` — where a node's inputs have to live.
-/

namespace HomCircuit

/-- The number of a node, which also breaks ties. -/
structure NodeId where
  index : UInt32
  deriving DecidableEq, Inhabited

/-- The number of a value, that is, of an edge of the graph. -/
structure ValueId where
  index : UInt32
  deriving DecidableEq, Inhabited

/-- The number of a device. -/
structure DeviceId where
  index : UInt32
  deriving DecidableEq, Inhabited

/-- A node number in texts. -/
def NodeId.label (id : NodeId) : String := s!"n{id.index}"

/-- A value number in texts. -/
def ValueId.label (id : ValueId) : String := s!"v{id.index}"

/-- A device number in texts. -/
def DeviceId.label (id : DeviceId) : String := s!"dev{id.index}"

/-- The kinds of operation on ciphertexts. -/
inductive Operation
  | add
  | sub
  | neg
  | addPlain (constant : UInt64)
  | mulPlain (constant : UInt64)
  /-- A bootstrap that maps each message through a table. -/
  | lookup (table : List UInt64)
  /-- A key switch from another partition into the node's own. -/
  | changePartition (source : PartitionId)
  | identity
  deriving DecidableEq, Inhabited

/-- The name of an operation. -/
def Operation.name : Operation → String
  | .add => "add"
  | .sub => "sub"
  | .neg => "neg"
  | .addPlain _ => "add_plain"
  | .mulPlain _ => "mul_plain"
  | .lookup _ => "apply_lookup_table"
  | .changePartition _ => "change_partition"
  | .identity => "identity"

/-- How many inputs an operation takes. -/
def Operation.arity : Operation → Nat
  | .add | .sub => 2
  | _ => 1

/-- Whether nodes with this operation may run on a device unless they say otherwise. -/
def Operation.eligibleByDefault : Operation → Bool
  | .changePartition _ | .identity => false
  | _ => true

/-- One operation of a circuit. -/
structure Node where
  id : NodeId
  op : Operation
  inputs : List ValueId
  output : ValueId
  /-- Partition of the output, and of the inputs unless the operation changes it. -/
  partition : PartitionId
  /-- Whether the node may run on a device. -/
  eligible : Bool := op.eligibleByDefault
  deriving DecidableEq, Inhabited

/-- The partition that every input of a node has to belong to. -/
def Node.inputPartition (n : Node) : PartitionId :=
  match n.op with
  | .changePartition source => source
  | _ => n.partition

end HomCircuit
