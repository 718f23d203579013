import HomCircuit.Graph.Node

/-!
# HomCircuit.Error

What can go wrong when a circuit is built, loaded or run.

* `DeviceError` — a device that cannot serve, from which the processor may recover;
* `PrimitiveError` — an operation that does not fit its inputs or keys;
* `RunError` — everything a caller may be told, with `RunError.rootCause` looking through
  cancellation;
* each type has one function `message` for its texts.
-/

namespace HomCircuit

/-- Why a device cannot serve. -/
inductive DeviceError
  | outOfMemory (device : DeviceId) (requested available : Nat)
  | invalidHandle (device : DeviceId) (handle : Nat)
  | faulted (device : DeviceId) (reason : String)
  | kernel (device : DeviceId) (reason : String)
  | noDevice
  deriving DecidableEq

/-- Why an operation cannot be computed. -/
inductive PrimitiveError
  | arity (op : String) (expected actual : Nat)
  | shape (expected actual : Nat)
  | lookupTable (length : Nat) (modulus : UInt64)
  | missingKeys (what : String)
  | valueKind (expected actual : String)
  | key (cause : KeyError)
  deriving DecidableEq

/-- Why a caller gets no result. -/
inductive RunError
  | invalidPartition (name reason : String)
  | keyGeneration (name reason : String)
  | bufferShape (what : String) (expected actual : Nat)
  | valueKind (value : ValueId) (expected actual : String)
  | nodeExecution (node : NodeId) (reason : String)
  | device (cause : DeviceError)
  | graphCancelled (cause : RunError) (failedNode : Option NodeId) (skipped : Nat)
  | cancelled
  | invalidGraph (reason : String)
  | unknownPartition (what : String)
  | unknownValue (value : ValueId)
  | missingArgument (value : ValueId)
  | invalidArtifact (reason : String)
  | remote (worker : Nat) (reason : String)
  | contextShutDown
  | initialization (reason : String)
  deriving DecidableEq

/-- The text of a device error. -/
def DeviceError.message : DeviceError → String
  | .outOfMemory device requested available =>
    s!"Device {device.label} out of memory: requested {requested} bytes, {available} available"
  | .invalidHandle device handle => s!"Device {device.label} has no buffer {handle}"
  | .faulted device reason => s!"Device {device.label} faulted: {reason}"
  | .kernel device reason => s!"Device {device.label} kernel failed: {reason}"
  | .noDevice => "No accelerator device available"

/-- The text of a primitive error. -/
def PrimitiveError.message : PrimitiveError → String
  | .arity op expected actual => s!"Operation {op} takes {expected} inputs, got {actual}"
  | .shape expected actual => s!"Ciphertext has {actual} words, expected {expected}"
  | .lookupTable length modulus =>
    s!"Lookup table of {length} entries does not fit plaintext modulus {modulus}"
  | .missingKeys what => s!"Missing key set for {what}"
  | .valueKind expected actual => s!"Expected {expected} input, got {actual}"
  | .key cause => cause.message

namespace RunError

/-- The text of an error. -/
def message : RunError → String
  | .invalidPartition name reason => s!"Invalid partition '{name}': {reason}"
  | .keyGeneration name reason => s!"Key generation failed for partition '{name}': {reason}"
  | .bufferShape what expected actual =>
    s!"Buffer shape mismatch for {what}: expected {expected}, got {actual}"
  | .valueKind value expected actual =>
    s!"Value {value.label} must be a {expected} value, got {actual}"
  | .nodeExecution node reason => s!"Node {node.label} failed: {reason}"
  | .device cause => s!"Device error: {cause.message}"
  | .graphCancelled cause _ skipped =>
    s!"Graph cancelled after {skipped} unstarted nodes were skipped: {cause.message}"
  | .cancelled => "Invocation cancelled"
  | .invalidGraph reason => s!"Invalid task graph: {reason}"
  | .unknownPartition what => s!"Unknown partition: {what}"
  | .unknownValue value => s!"Value {value.label} is neither produced nor a program argument"
  | .missingArgument value => s!"No value supplied for program argument {value.label}"
  | .invalidArtifact reason => s!"Invalid program artifact: {reason}"
  | .remote worker reason => s!"Remote worker {worker} error: {reason}"
  | .contextShutDown => "Context is shut down"
  | .initialization reason => s!"Runtime initialization failed: {reason}"

/-- The innermost cause, looking through cancellation. -/
def rootCause : RunError → RunError
  | .graphCancelled cause _ _ => cause.rootCause
  | e => e

/-- Whether the processor may take over. -/
def isRecoverable : RunError → Bool
  | .device _ => true
  | _ => false

/-- An error about keys as an error of the caller. -/
def ofKey : KeyError → RunError
  | .invalidPartition name reason => .invalidPartition name reason
  | .keyGeneration name reason => .keyGeneration name reason
  | .unknownPartition name => .unknownPartition name
  | .ciphertextShape name expected actual =>
    .bufferShape s!"ciphertext of partition '{name}'" expected actual
  | .blob cause => .keyGeneration "" cause.message

end RunError

end HomCircuit
