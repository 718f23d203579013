import HomCircuit.Report.Key
import HomCircuit.Error

/-!
# HomCircuit.Report.Error

Errors as JSON reports, and errors read from a description of their members.

* `kind` — the name of a cause, for each type of error;
* `report` — kind and text, and for a cancelled graph also the direct cause, the failed node and
  how many nodes were skipped;
* `ofReport?` — the error that `kind` and further members describe.
-/

namespace HomCircuit

/-- The name of a cause. -/
def DeviceError.kind : DeviceError → String
  | .outOfMemory .. => "OutOfMemory"
  | .invalidHandle .. => "InvalidHandle"
  | .faulted .. => "Faulted"
  | .kernel .. => "Kernel"
  | .noDevice => "NoDevice"

/-- The name of a cause. -/
def PrimitiveError.kind : PrimitiveError → String
  | .arity .. => "Arity"
  | .shape .. => "Shape"
  | .lookupTable .. => "LookupTable"
  | .missingKeys _ => "MissingKeys"
  | .valueKind .. => "ValueKind"
  | .key _ => "Key"

/-- The name of a cause. -/
def RunError.kind : RunError → String
  | .invalidPartition .. => "InvalidPartition"
  | .keyGeneration .. => "KeyGeneration"
  | .bufferShape .. => "BufferShapeMismatch"
  | .valueKind .. => "ValueKind"
  | .nodeExecution .. => "NodeExecution"
  | .device _ => "Device"
  | .graphCancelled .. => "GraphCancelled"
  | .cancelled => "Cancelled"
  | .invalidGraph _ => "InvalidGraph"
  | .unknownPartition _ => "UnknownPartition"
  | .unknownValue _ => "UnknownValue"
  | .missingArgument _ => "MissingArgument"
  | .invalidArtifact _ => "InvalidArtifact"
  | .remote .. => "Remote"
  | .contextShutDown => "ContextShutDown"
  | .initialization _ => "Initialization"

/-- The report of a device error. -/
def DeviceError.report (e : DeviceError) : Json := errorReport e.kind e.message

/-- The report of a primitive error. -/
def PrimitiveError.report (e : PrimitiveError) : Json := errorReport e.kind e.message

/-- The members of the report of an error. -/
def RunError.members (e : RunError) : List (String × Json) :=
  [("error", .text e.kind), ("message", .text e.message)] ++
    match e with
    | .graphCancelled cause node skipped =>
      [("cause", .text cause.kind),
        ("failed_node", .maybe (fun n : NodeId => .nat n.index.toNat) node),
        ("skipped", .nat skipped)]
    | _ => []

/-- The report of an error. -/
def RunError.report (e : RunError) : Json := .record e.members

/-! ## reading -/

/-- The stored-key error that members describe. -/
def BlobError.ofReport? (j : Json) : Option BlobError := do
  let text := j.field "text" Json.text?
  match ← j.field "kind" Json.text? with
  | "Io" => some (.io (← text))
  | "Serialization" => some (.serialization (← text))
  | "Deserialization" => some (.deserialization (← text))
  | "VersionMismatch" =>
    some (.versionMismatch (← j.field "blob_version" Json.word32?)
      (← j.field "supported_version" Json.word32?))
  | "InvalidMagic" => some (.invalidMagic (← j.field "magic" Json.bytes?))
  | "Truncated" => some (.truncated (← j.field "len" Json.nat?))
  | "ChecksumMismatch" => some .checksumMismatch
  | _ => none

/-- The key error that members describe. -/
def KeyError.ofReport? (j : Json) : Option KeyError := do
  let name := j.field "partition" Json.text?
  let reason := j.field "reason" Json.text?
  match ← j.field "kind" Json.text? with
  | "InvalidPartition" => some (.invalidPartition (← name) (← reason))
  | "KeyGeneration" => some (.keyGeneration (← name) (← reason))
  | "UnknownPartition" => some (.unknownPartition (← name))
  | "CiphertextShape" =>
    some (.ciphertextShape (← name) (← j.field "expected" Json.nat?) (← j.field "actual" Json.nat?))
  | "Blob" => some (.blob (← j.field "blob" BlobError.ofReport?))
  | _ => none

/-- The device error that members describe. -/
def DeviceError.ofReport? (j : Json) : Option DeviceError := do
  let device := (j.field "device" Json.word32?).map DeviceId.mk
  let reason := j.field "reason" Json.text?
  match ← j.field "kind" Json.text? with
  | "OutOfMemory" =>
    some (.outOfMemory (← device) (← j.field "requested" Json.nat?) (← j.field "available" Json.nat?))
  | "InvalidHandle" => some (.invalidHandle (← device) (← j.field "handle" Json.nat?))
  | "Faulted" => some (.faulted (← device) (← reason))
  | "Kernel" => some (.kernel (← device) (← reason))
  | "NoDevice" => some .noDevice
  | _ => none

/-- The primitive error that members describe. -/
def PrimitiveError.ofReport? (j : Json) : Option PrimitiveError := do
  let expected := j.field "expected" Json.nat?
  let actual := j.field "actual" Json.nat?
  match ← j.field "kind" Json.text? with
  | "Arity" => some (.arity (← j.field "name" Json.text?) (← expected) (← actual))
  | "Shape" => some (.shape (← expected) (← actual))
  | "LookupTable" =>
    some (.lookupTable (← j.field "len" Json.nat?) (← j.field "modulus" Json.word64?))
  | "MissingKeys" => some (.missingKeys (← j.field "text" Json.text?))
  | "ValueKind" =>
    some (.valueKind (← j.field "expected" Json.text?) (← j.field "actual" Json.text?))
  | "Key" => some (.key (← j.field "key" KeyError.ofReport?))
  | _ => none

/-- The error that members describe, with causes nested up to a depth. -/
def RunError.readNested : Nat → Json → Option RunError
  | 0, _ => none
  | fuel + 1, j => do
    let value := (j.field "value" Json.word32?).map ValueId.mk
    let node := (j.field "node" Json.word32?).map NodeId.mk
    let name := j.field "partition" Json.text?
    let reason := j.field "reason" Json.text?
    let text := j.field "text" Json.text?
    match ← j.field "kind" Json.text? with
    | "InvalidPartition" => some (.invalidPartition (← name) (← reason))
    | "KeyGeneration" => some (.keyGeneration (← name) (← reason))
    | "BufferShapeMismatch" =>
      some (.bufferShape (← j.field "what" Json.text?) (← j.field "expected" Json.nat?)
        (← j.field "actual" Json.nat?))
    | "ValueKind" =>
      some (.valueKind (← value) (← j.field "expected" Json.text?) (← j.field "actual" Json.text?))
    | "NodeExecution" => some (.nodeExecution (← node) (← reason))
    | "Device" => some (.device (← j.field "device" DeviceError.ofReport?))
    | "GraphCancelled" =>
      some (.graphCancelled (← j.field "cause" (readNested fuel))
        ((← j.optional "failed_node" Json.word32?).map NodeId.mk) (← j.field "skipped" Json.nat?))
    | "Cancelled" => some .cancelled
    | "InvalidGraph" => some (.invalidGraph (← text))
    | "UnknownPartition" => some (.unknownPartition (← text))
    | "UnknownValue" => some (.unknownValue (← value))
    | "MissingArgument" => some (.missingArgument (← value))
    | "InvalidArtifact" => some (.invalidArtifact (← text))
    | "Remote" => some (.remote (← j.field "worker" Json.nat?) (← reason))
    | "ContextShutDown" => some .contextShutDown
    | "Initialization" => some (.initialization (← text))
    | "FromKey" => some (.ofKey (← j.field "key" KeyError.ofReport?))
    | _ => none

/-- The error that members describe. -/
def RunError.ofReport? (j : Json) : Option RunError := readNested (j.depth + 1) j

end HomCircuit
