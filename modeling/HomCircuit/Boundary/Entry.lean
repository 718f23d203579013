import HomCircuit.Boundary.Body
import HomCircuit.Text.Utf8

/-!
# HomCircuit.Boundary.Entry

The entry points for foreign callers. Each checks what it is handed in a fixed order before it asks
the library: handles, null places, the partition, the lengths.

* `createContext`, `loadProgram` — new handles;
* `register`, `ciphertextLength`, `decrypt` — one number each;
* `encrypt`, `add`, `neg`, `mulPlain`, `lookUp` — one ciphertext each;
* `callProgram` — all outputs of a program, one after the other; `callBy` — the same for any way in which
  calls may answer.
-/

namespace HomCircuit.Boundary

/-- The version of the entry points. -/
def version : Nat := 1

/-- Refuses a null place. -/
def checkPlace (what : String) (place : Bool) : Except Fault Unit :=
  if place then .ok () else .error (.null what)

/-! ## handles -/

/-- Whether a bit is set. -/
def hasFlag (flags : UInt32) (bit : UInt32) : Bool := flags &&& bit ≠ 0

/-- What the flags of a new context ask for: devices, simulation, a fixed order. -/
def optionsOf (parallelism : Nat) (flags : UInt32) (cacheCapacity : Nat) : ContextOptions :=
  { parallelism, cacheCapacity
    accelerator := hasFlag flags 1
    simulation := hasFlag flags 2
    deterministic := hasFlag flags 4 }

/-- A new context. -/
def createContext (parallelism : Nat) (flags : UInt32) (cacheCapacity : Nat) (place : Bool) :
    Except Fault Context := do
  checkPlace "out" place
  (Context.create (optionsOf parallelism flags cacheCapacity) .reference []).mapError .ofError

/-- The text that bytes from the caller stand for. -/
def textOf (what : String) (bs : List UInt8) : Except Fault String :=
  (Text.ofUtf8 bs).mapError fun e => .argument s!"{what}: {e.message}"

/-- The program that a document describes. -/
def loadProgram (document : Option (List UInt8)) (place : Bool) : Except Fault Program := do
  match document with
  | none => .error (.null "json")
  | some bs =>
    checkPlace "out" place
    match Artifact.parse? (← textOf "json" bs) with
    | none => .error (.ofError (.invalidArtifact ""))
    | some a => (Program.load a).mapError .ofError

/-! ## numbers -/

/-- Registers a partition under a name that ends before its first zero byte. -/
def register (name : Option (List UInt8)) (lweDim glweDim polySize : UInt64) (place : Bool) :
    Body PartitionId := do
  match name with
  | none => throw (.null "name")
  | some bs =>
    Body.lift (checkPlace "out_id" place)
    let name ← Body.lift (textOf "name" (bs.takeWhile (· ≠ 0)))
    let p : Partition := { name, lweDim, glweDim, polySize }
    Body.liftRun (p.validate.mapError .ofKey)
    Body.inContext (Context.register p)

/-- The length of ciphertexts of a partition. -/
def ciphertextLength (id : PartitionId) (place : Bool) : Body Nat := do
  Body.lift (checkPlace "out_len" place)
  return (← Body.partition id).ciphertextLength

/-- The message of a ciphertext. -/
def decrypt (id : PartitionId) (input : Words) (place : Bool) : Body UInt64 := do
  let input ← Body.lift (input.get "input")
  Body.lift (checkPlace "out_message" place)
  let p ← Body.partition id
  Body.checkLength "input ciphertext" p.ciphertextLength input.length
  let keys ← Body.inContext (Context.keySet p)
  Body.liftRun ((keys.decrypt input).mapError .ofKey)

/-! ## ciphertexts -/

/-- Why a copy into a place of another length crashes. -/
def copyReason (source destination : Nat) : String :=
  s!"copy_from_slice: source slice length ({source}) does not match destination slice length " ++
  s!"({destination})"

/-- Writes a fresh ciphertext of a message. The keys may be those of a partition of the same identity,
whose ciphertexts have another length; then the entry point crashes. -/
def encrypt (id : PartitionId) (message nonce : UInt64) : Body Unit := do
  let out ← Body.output "out"
  let p ← Body.partition id
  Body.checkLength "output ciphertext" p.ciphertextLength out.length
  let keys ← Body.inContext (Context.keySet p)
  let words := keys.encrypt message nonce
  if words.length ≠ out.length then
    throw (.crash "cipherflow_encrypt_lwe" (copyReason words.length out.length))
  Body.write 0 words

/-- Writes the result of an operation on ciphertexts of one partition. -/
def operate (op : Operation) (id : PartitionId) (inputs : List (List UInt64)) : Body Unit := do
  let out ← Body.output "out"
  let p ← Body.partition id
  Body.checkLength "output ciphertext" p.ciphertextLength out.length
  for (input, i) in inputs.zipIdx do
    Body.checkLength s!"input ciphertext {i}" p.ciphertextLength input.length
  if (← Body.context).mode = .simulation then
    throw (.argument "ciphertext operations are unavailable in simulation mode")
  let result ← Body.inContext (Context.runOp op id (inputs.map .ciphertext))
  match result.ciphertext? with
  | none =>
    throw { status := .nodeExecution, message := "operation did not produce a ciphertext" }
  | some words =>
    Body.checkLength "result ciphertext" out.length words.length
    Body.write 0 words

/-- Writes a sum. -/
def add (id : PartitionId) (lhs rhs : Words) : Body Unit := do
  let lhs ← Body.lift (lhs.get "lhs")
  let rhs ← Body.lift (rhs.get "rhs")
  operate .add id [lhs, rhs]

/-- Writes the negative. -/
def neg (id : PartitionId) (input : Words) : Body Unit := do
  operate .neg id [← Body.lift (input.get "input")]

/-- Writes a multiple. -/
def mulPlain (id : PartitionId) (input : Words) (constant : UInt64) : Body Unit := do
  operate (.mulPlain constant) id [← Body.lift (input.get "input")]

/-- Writes what a table holds for the message. The table has an entry for each message or for each
plaintext, which counts the carry too. -/
def lookUp (id : PartitionId) (input table : Words) : Body Unit := do
  let input ← Body.lift (input.get "input")
  let table ← Body.lift (table.get "table")
  let _ ← Body.output "out"
  let p ← Body.partition id
  if table.length ≠ p.messageModulus.toNat then
    Body.checkLength "lookup table" p.plaintextModulus.toNat table.length
  operate (.lookup table) id [input]

/-! ## programs -/

/-- Words that a value of a program takes: those of a ciphertext, or one in simulation. -/
def valueWords (p : Program) (v : ValueId) : Body Nat := do
  if (← Body.context).mode = .simulation then return 1
  match p.graph.slot? v with
  | none => Body.liftRun (.error (.unknownValue v))
  | some slot =>
    return (← Body.liftRun (p.partition (p.graph.slotPartition slot))).ciphertextLength

/-- The sum of lengths. -/
def total (lengths : List Nat) : Nat := lengths.foldr (· + ·) 0

/-- Pieces of the given lengths. -/
def pieces : List Nat → List UInt64 → List (List UInt64)
  | [], _ => []
  | n :: rest, words => words.take n :: pieces rest (words.drop n)

/-- The value of a piece of the input. -/
def inputValue (simulation : Bool) (words : List UInt64) : Value :=
  if simulation then .cleartext (words.headD 0) else .ciphertext words

/-- Writes the value of an output from an offset on, to as many words as the length says. -/
def writeOutput (p : Program) (offset length : Nat) (id : ValueId) : Value → Body Unit
  | .ciphertext words => do
    Body.checkLength s!"output {id.label}" length words.length
    Body.write offset words
  | value => do
    Body.write offset [← Body.inContext (p.decryptValue id value)]

/-- Writes the values of outputs from an offset on, one after the other. -/
def writeOutputs (p : Program) : Nat → List (Value × Nat × ValueId) → Body Unit
  | _, [] => pure ()
  | offset, (value, length, id) :: rest => do
    writeOutput p offset length id value
    writeOutputs p (offset + length) rest

/-- Writes the outputs of a program for the inputs that follow one another, where its calls answer as
given. -/
def callBy (p : Program)
    (call : List Value → Context → Except RunError (List Value) × Trace × Context) (inputs : Words) :
    Body Unit := do
  let inputs ← Body.lift (inputs.get "inputs")
  let out ← Body.output "outputs"
  let inputLengths ← p.inputs.mapM fun (v, _) => valueWords p v
  let outputLengths ← p.outputs.mapM (valueWords p)
  Body.checkLength "program inputs" (total inputLengths) inputs.length
  Body.checkLength "program outputs" (total outputLengths) out.length
  let simulation := (← Body.context).mode = .simulation
  let values := (pieces inputLengths inputs).map (inputValue simulation)
  let results ← Body.inContext fun c =>
    let (result, _, c) := call values c
    (result, c)
  writeOutputs p 0 (results.zip (outputLengths.zip p.outputs))

/-- Writes the outputs of a program for the inputs that follow one another. -/
def callProgram (program : Option Program) (inputs : Words) : Body Unit :=
  match program with
  | none => throw (.handle "program")
  | some p => callBy p p.call inputs

end HomCircuit.Boundary
