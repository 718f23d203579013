import HomCircuit.Context.Basic

/-!
# HomCircuit.Context.Call

Programs called in a context.

* `Program.callWith` — one call with the choices of its caller: inputs by position, and the values
  asked for in their order;
* `Program.encryptInputs`, `Program.decryptOutputs`, `Program.decryptValue`.
-/

namespace HomCircuit

/-- What a caller may choose for one call of a program. -/
structure CallChoice where
  /-- Values to return in place of the program's outputs. -/
  outputs : Option (List ValueId) := none
  /-- Whether nodes start in dispatch order, in place of the context's setting. -/
  deterministic : Option Bool := none
  assignment : List (NodeId × Nat) := []
  /-- A token in place of a fresh one of the context. -/
  token : Option CancelToken := none
  deriving Inhabited

namespace Program

/-- Picks the values asked for, each of them once. -/
def pick : List (ValueId × Value) → List ValueId → Except RunError (List Value)
  | _, [] => .ok []
  | values, v :: rest =>
    match values.lookup v with
    | none => .error (.unknownValue v)
    | some x => (pick (values.filter (·.1 ≠ v)) rest).map (x :: ·)

/-- The error for inputs of the wrong number. -/
def inputShape (p : Program) (actual : Nat) : RunError :=
  .bufferShape s!"inputs of program '{p.name}'" p.inputs.length actual

/-- One call of a program: the number of inputs and the workers of assigned nodes are checked
first. -/
def callWith (p : Program) (inputs : List Value) (o : CallChoice) (c : Context) :
    Except RunError (List Value) × Trace × Context :=
  let c := c.handOver o.token
  if inputs.length ≠ p.inputs.length then (.error (p.inputShape inputs.length), {}, c)
  else
    match o.assignment.find? (c.resources.remotes.length ≤ ·.2) with
    | some (_, w) => (.error (.remote w "no such remote worker"), {}, c)
    | none =>
      let requested := o.outputs.getD p.outputs
      let settings : CallOptions :=
        { requested, deterministic := o.deterministic.getD c.options.deterministic
          elide := c.options.elide, assignment := o.assignment }
      let (t, c) := match o.token with
        | some t => (t, c)
        | none => c.token
      let (result, trace, c) :=
        c.execute p.graph p.partitions ((p.inputs.map (·.1)).zip inputs) settings t
      (result.bind (pick · requested), trace, c)

/-- One call of a program with the settings of its context. -/
def call (p : Program) (inputs : List Value) (c : Context) :
    Except RunError (List Value) × Trace × Context :=
  p.callWith inputs {} c

/-! ## encryption -/

/-- The partition with a number. -/
def partition (p : Program) (id : PartitionId) : Except RunError Partition :=
  match p.partitions.get? id with
  | some q => .ok q
  | none => .error (.unknownPartition id.label)

/-- A message for one input, under a nonce. -/
def encryptInput (p : Program) (id : PartitionId) (message nonce : UInt64) (c : Context) :
    Except RunError Value × Context :=
  match p.partition id with
  | .error e => (.error e, c)
  | .ok q =>
    if c.mode = .simulation then (.ok (.simulated (Simulation.encrypt q message)), c)
    else
      let (keys, c) := c.keySet q
      (keys.map fun k => .ciphertext (k.encrypt message nonce), c)

/-- Messages for inputs from a position on. -/
def encryptFrom (p : Program) : Nat → List (PartitionId × UInt64) → Context →
    Except RunError (List Value) × Context
  | _, [], c => (.ok [], c)
  | position, (id, message) :: rest, c =>
    match p.encryptInput id message (UInt64.ofNat position) c with
    | (.error e, c) => (.error e, c)
    | (.ok v, c) =>
      let (others, c) := encryptFrom p (position + 1) rest c
      (others.map (v :: ·), c)

/-- Encrypts messages for the inputs, each under its position as nonce. -/
def encryptInputs (p : Program) (messages : List UInt64) (c : Context) :
    Except RunError (List Value) × Context :=
  if messages.length ≠ p.inputs.length then (.error (p.inputShape messages.length), c)
  else p.encryptFrom 0 ((p.inputs.map (·.2)).zip messages) c

/-- The message of one value of the graph. -/
def decryptValue (p : Program) (id : ValueId) (v : Value) (c : Context) :
    Except RunError UInt64 × Context :=
  match p.graph.slot? id with
  | none => (.error (.unknownValue id), c)
  | some slot =>
    match p.partition (p.graph.slotPartition slot) with
    | .error e => (.error e, c)
    | .ok q =>
      match v with
      | .cleartext message => (.ok (message % q.plaintextModulus), c)
      | .simulated s => (.ok (s.shadow % q.plaintextModulus), c)
      | .ciphertext words =>
        let (keys, c) := c.keySet q
        (keys.bind fun k => (k.decrypt words).mapError .ofKey, c)

/-- The messages of several values, up to the first error. -/
def decryptAll (p : Program) : List (ValueId × Value) → Context →
    Except RunError (List UInt64) × Context
  | [], c => (.ok [], c)
  | (id, v) :: rest, c =>
    match p.decryptValue id v c with
    | (.error e, c) => (.error e, c)
    | (.ok m, c) =>
      let (others, c) := decryptAll p rest c
      (others.map (m :: ·), c)

/-- The messages of values that stand for the outputs. -/
def decryptOutputs (p : Program) (values : List Value) (c : Context) :
    Except RunError (List UInt64) × Context :=
  if values.length ≠ p.outputs.length then
    (.error (.bufferShape s!"outputs of program '{p.name}'" p.outputs.length values.length), c)
  else p.decryptAll (p.outputs.zip values) c

end Program

end HomCircuit
