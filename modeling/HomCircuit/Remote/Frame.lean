import HomCircuit.Key.Blob
import HomCircuit.Graph.Node

/-!
# HomCircuit.Remote.Frame

The messages between a context and a remote worker, and their binary form.

```
dispatch    0  delivery  node  operation  partition  source partition  seeds  inputs  nonce
completion  1  delivery  node  result
shutdown    2
```

* `Frame.format` — every frame is read back from the front of whatever follows it, so bytes after a
  frame are left alone;
* `Frame.encode`, `Frame.decode?` — the two directions.
-/

namespace HomCircuit

/-- The number of an operation's case. -/
def Operation.tag : Operation → UInt32
  | .add => 0
  | .sub => 1
  | .neg => 2
  | .addPlain _ => 3
  | .mulPlain _ => 4
  | .lookup _ => 5
  | .changePartition _ => 6
  | .identity => 7

/-- The constant of an operation, zero where it has none. -/
def Operation.scalar : Operation → UInt64
  | .addPlain c | .mulPlain c => c
  | _ => 0

/-- The table of an operation, empty where it has none. -/
def Operation.table : Operation → List UInt64
  | .lookup t => t
  | _ => []

/-- The number of the partition that an operation starts from, zero where it has none. -/
def Operation.sourceIndex : Operation → UInt32
  | .changePartition source => source.index
  | _ => 0

/-- An operation by the number of its case and its constant, table or source. -/
def Operation.format : Format Operation :=
  .tagged Operation.tag fun t =>
    if t = 0 then some (.constant .add)
    else if t = 1 then some (.constant .sub)
    else if t = 2 then some (.constant .neg)
    else if t = 3 then some (Format.word64.via Operation.scalar .addPlain)
    else if t = 4 then some (Format.word64.via Operation.scalar .mulPlain)
    else if t = 5 then some ((Format.list .word64).via Operation.table .lookup)
    else if t = 6 then
      some (Format.word32.via Operation.sourceIndex fun i => .changePartition ⟨i⟩)
    else if t = 7 then some (.constant .identity)
    else none

/-- A request to run one operation. -/
structure DispatchFrame where
  /-- The same number stands on every copy of a request. -/
  delivery : UInt64
  node : NodeId
  op : Operation
  partition : Partition
  /-- The partition that a change of partition starts from. -/
  source : Option Partition
  seed : KeySeed
  inputs : List Ciphertext
  nonce : UInt64
  deriving DecidableEq, Inhabited

/-- The answer to a request: a ciphertext, or the text of an error. -/
structure CompletionFrame where
  delivery : UInt64
  node : NodeId
  result : Except String Ciphertext
  deriving Inhabited

/-- A message. -/
inductive Frame
  | dispatch (d : DispatchFrame)
  | completion (c : CompletionFrame)
  | shutdown
  deriving Inhabited

/-! ## binary form -/

/-- A ciphertext as a list of words. -/
def Ciphertext.format : Format Ciphertext := .list .word64

/-- The members of a request in order. -/
def DispatchFrame.format : Format DispatchFrame :=
  let front := Format.word64.pair (Format.word32.pair Operation.format)
  let keys := Partition.format.pair ((Format.optional Partition.format).pair KeySeed.format)
  let load := (Format.list Ciphertext.format).pair Format.word64
  (front.pair (keys.pair load)).via
    (fun d => ((d.delivery, d.node.index, d.op), (d.partition, d.source, d.seed),
      (d.inputs, d.nonce)))
    (fun ((delivery, node, op), (partition, source, seed), (inputs, nonce)) =>
      { delivery, node := ⟨node⟩, op, partition, source, seed, inputs, nonce })

/-- A result by the number of its case. -/
def resultFormat : Format (Except String Ciphertext) :=
  .tagged (fun r => if r.isOk then 0 else 1) fun t =>
    if t = 0 then
      some (Ciphertext.format.via (fun r => match r with | .ok ct => ct | .error _ => []) .ok)
    else if t = 1 then
      some (Format.text.via (fun r => match r with | .ok _ => "" | .error e => e) .error)
    else none

/-- The members of an answer in order. -/
def CompletionFrame.format : Format CompletionFrame :=
  (Format.word64.pair (Format.word32.pair resultFormat)).via
    (fun c => (c.delivery, c.node.index, c.result))
    (fun (delivery, node, result) => { delivery, node := ⟨node⟩, result })

namespace Frame

/-- The number of a frame's case. -/
def tag : Frame → UInt32
  | .dispatch _ => 0
  | .completion _ => 1
  | .shutdown => 2

/-- A frame by the number of its case and its members. -/
def format : Format Frame :=
  .tagged tag fun t =>
    if t = 0 then
      some (DispatchFrame.format.via (fun f => match f with | .dispatch d => d | _ => default)
        .dispatch)
    else if t = 1 then
      some (CompletionFrame.format.via (fun f => match f with | .completion c => c | _ => default)
        .completion)
    else if t = 2 then some (.constant .shutdown)
    else none

/-- The bytes of a frame. -/
def encode (f : Frame) : List UInt8 := format.write f

/-- The frame at the front of some bytes. -/
def decode? (bs : List UInt8) : Option Frame := (format.read bs).map (·.1)

end Frame

end HomCircuit
