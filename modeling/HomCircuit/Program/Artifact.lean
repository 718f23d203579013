import HomCircuit.Partition.Basic
import HomCircuit.Decimal.Notation
import HomCircuit.Json.Record
import HomCircuit.Json.Reader
import HomCircuit.Json.Printer

/-!
# HomCircuit.Program.Artifact

The document that a compiler emits for one circuit: partitions by name, program arguments,
requested outputs and nodes.

```
{ "name", "partitions": [..], "inputs": [..], "outputs": [..], "nodes": [..] }
```

An operation is an object whose `kind` names it, with its constant beside it. Unset parameters are
left out on writing and take their defaults on loading.

* `Artifact.parse?`, `Artifact.print` — the document's reader and writer;
* `Artifact.ofJson?`, `Artifact.toJson` — the same on documents.
-/

namespace HomCircuit

open Json.Record (fields? required defaulted text? word64? word32? real? items? pair?)

/-- A partition of an artifact. -/
structure PartitionEntry where
  name : String
  lweDim : UInt64
  glweDim : UInt64
  polySize : UInt64
  lweNoise : Option Binary64 := none
  glweNoise : Option Binary64 := none
  bootstrap : Option Decomposition := none
  keySwitch : Option Decomposition := none
  messageModulus : Option UInt64 := none
  carryModulus : Option UInt64 := none
  keyChoice : Option KeyChoice := none
  deriving DecidableEq, Inhabited

/-- An operation of an artifact; a partition goes by its name. -/
inductive OperationEntry
  | add
  | sub
  | neg
  | addPlain (constant : UInt64)
  | mulPlain (constant : UInt64)
  | lookup (table : List UInt64)
  | changePartition (source : String)
  | identity
  deriving DecidableEq, Inhabited

/-- A program argument. -/
structure InputEntry where
  value : UInt32
  partition : String
  deriving DecidableEq, Inhabited

/-- A node of an artifact. -/
structure NodeEntry where
  id : UInt32
  op : OperationEntry
  inputs : List UInt32
  output : UInt32
  partition : String
  /-- Overrides whether the operation may run on a device. -/
  eligible : Option Bool := none
  deriving DecidableEq, Inhabited

/-- A compiled circuit. -/
structure Artifact where
  name : String
  partitions : List PartitionEntry
  inputs : List InputEntry
  outputs : List UInt32
  nodes : List NodeEntry
  deriving DecidableEq, Inhabited

/-! ## numeric equality -/

/-- Equality of optional numbers. -/
def sameOptional : Option Binary64 → Option Binary64 → Bool
  | none, none => true
  | some x, some y => x.eq y
  | _, _ => false

/-- Equality of all fields, with real numbers compared as numbers. -/
def PartitionEntry.same (a b : PartitionEntry) : Bool :=
  sameOptional a.lweNoise b.lweNoise && sameOptional a.glweNoise b.glweNoise &&
    ({ a with lweNoise := none, glweNoise := none } : PartitionEntry)
      == { b with lweNoise := none, glweNoise := none }

/-- Equality of artifacts, with real numbers compared as numbers. -/
def Artifact.same (a b : Artifact) : Bool :=
  a.partitions.length == b.partitions.length
    && (a.partitions.zip b.partitions).all (fun (p, q) => p.same q)
    && ({ a with partitions := [] } : Artifact) == { b with partitions := [] }

/-! ## writing -/

/-- A whole number. -/
def natJson (n : Nat) : Json := .nat n

/-- A real number; what is none is null. -/
def realJson (x : Binary64) : Json :=
  match Decimal.documentLiteral? x with
  | some l => .number l
  | none => .null

/-- A member for a field that is set. -/
def member {α : Type} (key : String) (write : α → Json) : Option α → List (String × Json)
  | some a => [(key, write a)]
  | none => []

/-- A decomposition as a pair. -/
def decompositionJson (d : Decomposition) : Json :=
  .array [natJson d.baseLog.toNat, natJson d.level.toNat]

/-- A key choice by its name. -/
def keyChoiceJson : KeyChoice → Json
  | .big => .text "Big"
  | .small => .text "Small"

/-- A partition as an object. -/
def PartitionEntry.toJson (p : PartitionEntry) : Json :=
  .record ([("name", .text p.name), ("lwe_dim", natJson p.lweDim.toNat),
      ("glwe_dim", natJson p.glweDim.toNat), ("poly_size", natJson p.polySize.toNat)]
    ++ member "lwe_noise_std_dev" realJson p.lweNoise
    ++ member "glwe_noise_std_dev" realJson p.glweNoise
    ++ member "pbs_decomposition" decompositionJson p.bootstrap
    ++ member "ks_decomposition" decompositionJson p.keySwitch
    ++ member "message_modulus" (fun m : UInt64 => natJson m.toNat) p.messageModulus
    ++ member "carry_modulus" (fun m : UInt64 => natJson m.toNat) p.carryModulus
    ++ member "encryption_key_choice" keyChoiceJson p.keyChoice)

/-- The name that an operation goes by. -/
def OperationEntry.kind : OperationEntry → String
  | .add => "add"
  | .sub => "sub"
  | .neg => "neg"
  | .addPlain _ => "add_plain"
  | .mulPlain _ => "mul_plain"
  | .lookup _ => "apply_lookup_table"
  | .changePartition _ => "change_partition"
  | .identity => "identity"

/-- What stands beside the kind of an operation. -/
def OperationEntry.members : OperationEntry → List (String × Json)
  | .addPlain c | .mulPlain c => [("constant", natJson c.toNat)]
  | .lookup t => [("table", .array (t.map fun c => natJson c.toNat))]
  | .changePartition source => [("from", .text source)]
  | _ => []

/-- An operation as an object. -/
def OperationEntry.toJson (op : OperationEntry) : Json :=
  .record (("kind", .text op.kind) :: op.members)

/-- An argument as an object. -/
def InputEntry.toJson (i : InputEntry) : Json :=
  .record [("value", natJson i.value.toNat), ("partition", .text i.partition)]

/-- A node as an object. -/
def NodeEntry.toJson (n : NodeEntry) : Json :=
  .record ([("id", natJson n.id.toNat), ("op", n.op.toJson),
      ("inputs", .array (n.inputs.map fun v => natJson v.toNat)),
      ("output", natJson n.output.toNat), ("partition", .text n.partition)]
    ++ member "accelerator_eligible" .bool n.eligible)

/-- An artifact as a document. -/
def Artifact.toJson (a : Artifact) : Json :=
  .record [("name", .text a.name), ("partitions", .array (a.partitions.map (·.toJson))),
    ("inputs", .array (a.inputs.map (·.toJson))),
    ("outputs", .array (a.outputs.map fun v => natJson v.toNat)),
    ("nodes", .array (a.nodes.map (·.toJson)))]

/-- The text of an artifact. -/
def Artifact.print (a : Artifact) : String := a.toJson.render

/-! ## reading -/

/-- A decomposition from a pair. -/
def decompositionOf? (j : Json) : Option Decomposition :=
  (pair? word32? word32? j).map fun (b, l) => ⟨b, l⟩

/-- A key choice by its name, which may stand as the key of a null. -/
def keyChoiceOf? : Json → Option KeyChoice
  | .string (some "Big") | .object [(some "Big", .null)] => some .big
  | .string (some "Small") | .object [(some "Small", .null)] => some .small
  | _ => none

/-- A partition from its fields. -/
def PartitionEntry.ofJson? (j : Json) : Option PartitionEntry := do
  match ← fields? ["name", "lwe_dim", "glwe_dim", "poly_size", "lwe_noise_std_dev",
      "glwe_noise_std_dev", "pbs_decomposition", "ks_decomposition", "message_modulus",
      "carry_modulus", "encryption_key_choice"] j with
  | [name, lwe, glwe, poly, lweNoise, glweNoise, pbs, ks, message, carry, choice] =>
    some
      { name := ← required text? name
        lweDim := ← required word64? lwe
        glweDim := ← required word64? glwe
        polySize := ← required word64? poly
        lweNoise := ← defaulted real? lweNoise
        glweNoise := ← defaulted real? glweNoise
        bootstrap := ← defaulted decompositionOf? pbs
        keySwitch := ← defaulted decompositionOf? ks
        messageModulus := ← defaulted word64? message
        carryModulus := ← defaulted word64? carry
        keyChoice := ← defaulted keyChoiceOf? choice }
  | _ => none

/-- How deep an operation may be nested, its own object included. -/
def operationDepth : Nat := 124

/-- The kind of an operation and the document that holds its constant: an object less its kind, or
an array less its first member. -/
def splitKind? : Json → Option (String × Json)
  | .object fields => do
    let kind ← (← Json.Record.single? fields "kind") >>= text?
    some (kind, .object (fields.filter (·.1 ≠ some "kind")))
  | .array (.string (some kind) :: rest) => some (kind, .array rest)
  | _ => none

/-- The only field of an operation. -/
def constant? {α : Type} (key : String) (read : Json → Option α) (j : Json) : Option α := do
  match ← fields? [key] j with
  | [found] => required read found
  | _ => none

/-- An operation from its kind and fields; all of it has to be proper, what is ignored included. -/
def OperationEntry.ofJson? (j : Json) : Option OperationEntry := do
  if !j.isProper || operationDepth < j.depth then none
  else
    let (kind, rest) ← splitKind? j
    let bare (op : OperationEntry) : Option OperationEntry := (fields? [] rest).map fun _ => op
    match kind with
    | "add" => bare .add
    | "sub" => bare .sub
    | "neg" => bare .neg
    | "identity" => bare .identity
    | "add_plain" => (constant? "constant" word64? rest).map .addPlain
    | "mul_plain" => (constant? "constant" word64? rest).map .mulPlain
    | "apply_lookup_table" => (constant? "table" (items? word64?) rest).map .lookup
    | "change_partition" => (constant? "from" text? rest).map .changePartition
    | _ => none

/-- An argument from its fields. -/
def InputEntry.ofJson? (j : Json) : Option InputEntry := do
  match ← fields? ["value", "partition"] j with
  | [value, partition] =>
    some { value := ← required word32? value, partition := ← required text? partition }
  | _ => none

/-- A node from its fields. -/
def NodeEntry.ofJson? (j : Json) : Option NodeEntry := do
  match ← fields? ["id", "op", "inputs", "output", "partition", "accelerator_eligible"] j with
  | [id, op, inputs, output, partition, eligible] =>
    some
      { id := ← required word32? id
        op := ← required OperationEntry.ofJson? op
        inputs := ← required (items? word32?) inputs
        output := ← required word32? output
        partition := ← required text? partition
        eligible := ← defaulted Json.Record.bool? eligible }
  | _ => none

/-- An artifact from its fields. -/
def Artifact.ofJson? (j : Json) : Option Artifact := do
  match ← fields? ["name", "partitions", "inputs", "outputs", "nodes"] j with
  | [name, partitions, inputs, outputs, nodes] =>
    some
      { name := ← required text? name
        partitions := ← required (items? PartitionEntry.ofJson?) partitions
        inputs := ← required (items? InputEntry.ofJson?) inputs
        outputs := ← required (items? word32?) outputs
        nodes := ← required (items? NodeEntry.ofJson?) nodes }
  | _ => none

/-- The artifact that a text writes. -/
def Artifact.parse? (s : String) : Option Artifact := Json.parse? s >>= Artifact.ofJson?

end HomCircuit
