import HomCircuit.Error
import HomCircuit.Key.Set

/-!
# HomCircuit.Primitive

The arithmetic of every operation on ciphertexts.

Linear operations work on the words alone. A table lookup and a change of partition decrypt with the
keys at hand and encrypt again under a nonce, so their results are exact.

* `Primitive.run` — the reference arithmetic;
* `nodeNonce` — the nonce of a node, a hash of its number and all its input words;
* `trivialCiphertext` — a message without mask and noise.
-/

namespace HomCircuit

/-- The keys bound to one operation. -/
structure OperationKeys where
  /-- Keys of the node's own partition. -/
  output : KeySet
  /-- Keys of the partition that a change of partition starts from. -/
  input : Option KeySet := none

/-- The nonce of a node: a hash of its number and of the words of its inputs in order. -/
def nodeNonce (node : NodeId) (inputs : List Ciphertext) : UInt64 :=
  inputs.foldl Hash.fnvWords (Hash.fnv1a (UInt32.toBytes node.index))

/-- A message on the torus without mask and noise. -/
def trivialCiphertext (p : Partition) (message : UInt64) : Ciphertext :=
  List.replicate p.keyDim 0 ++ [message % max p.plaintextModulus 1 * p.delta]

namespace Primitive

/-- Whether a table covers all plaintexts or all messages of a partition. -/
def tableFits (table : List UInt64) (p : Partition) : Bool :=
  table.length ≠ 0 &&
    (table.length = p.plaintextModulus.toNat || table.length = p.messageModulus.toNat)

/-- Refuses a table that covers neither all plaintexts nor all messages. -/
def checkTable (table : List UInt64) (p : Partition) : Except PrimitiveError Unit :=
  if tableFits table p then .ok () else .error (.lookupTable table.length p.plaintextModulus)

/-- Refuses the first input of another length. -/
def checkShapes (expected : Nat) : List Ciphertext → Except PrimitiveError Unit
  | [] => .ok ()
  | ct :: rest =>
    if ct.length ≠ expected then .error (.shape expected ct.length) else checkShapes expected rest

/-- The entry of a table for a message, taken modulo the table's length. -/
def tableEntry (table : List UInt64) (message : UInt64) : UInt64 :=
  table.getD (message.toNat % table.length) 0

/-- A ciphertext with its body changed. -/
def mapBody (f : UInt64 → UInt64) (ct : Ciphertext) : Ciphertext :=
  ct.dropLast ++ (ct.getLast?.map f).toList

/-- An operation on inputs of the right number and length. -/
def apply (op : Operation) (inputs : List Ciphertext) (output source : KeySet) (nonce : UInt64) :
    Except PrimitiveError Ciphertext :=
  let a := inputs.getD 0 []
  let b := inputs.getD 1 []
  let p := output.partition
  match op with
  | .add => .ok (List.zipWith (· + ·) a b)
  | .sub => .ok (List.zipWith (· - ·) a b)
  | .neg => .ok (a.map (0 - ·))
  | .addPlain constant => .ok (mapBody (· + output.encode constant) a)
  | .mulPlain constant => .ok (a.map (· * constant))
  | .lookup table => do
    checkTable table p
    let message ← (output.decrypt a).mapError .key
    .ok (output.encrypt (tableEntry table message % p.plaintextModulus) nonce)
  | .changePartition _ => do
    let message ← (source.decrypt a).mapError .key
    .ok (output.encrypt (message % p.plaintextModulus) nonce)
  | .identity => .ok a

/-- The keys that an operation's inputs are under. -/
def sourceKeys (op : Operation) (keys : OperationKeys) : Except PrimitiveError KeySet :=
  match op with
  | .changePartition _ =>
    match keys.input with
    | some source => .ok source
    | none => .error (.missingKeys "source partition")
  | _ => .ok keys.output

/-- The reference arithmetic: number of inputs, source keys and lengths are checked in this order
before the operation is applied. -/
def run (op : Operation) (inputs : List Ciphertext) (keys : OperationKeys) (nonce : UInt64) :
    Except PrimitiveError Ciphertext :=
  if inputs.length ≠ op.arity then .error (.arity op.name op.arity inputs.length)
  else do
    let source ← sourceKeys op keys
    checkShapes source.partition.ciphertextLength inputs
    apply op inputs keys.output source nonce

end Primitive

/-- The name of the reference arithmetic. -/
def referenceName : String := "reference-lwe"

/-- The error of a node whose operation failed on a processor. -/
def nodeFailure (n : Node) (e : PrimitiveError) : RunError :=
  .nodeExecution n.id s!"{e.message} ({n.op.name})"

end HomCircuit
