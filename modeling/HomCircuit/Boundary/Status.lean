import HomCircuit.Error

/-!
# HomCircuit.Boundary.Status

The numbers that a foreign caller is told.

* `Status` — the outcomes, with `Status.code`;
* `RunError.status` — the outcome that stands for an error's root cause.
-/

namespace HomCircuit

/-- Outcomes of a call across the boundary. -/
inductive Status
  | ok
  | invalidPartition
  | keyGeneration
  | bufferShapeMismatch
  | nodeExecution
  | device
  | graphCancelled
  | nullPointer
  | invalidHandle
  | panic
  | invalidArgument
  deriving DecidableEq, Inhabited

/-- The number of an outcome. -/
def Status.code : Status → Nat
  | .ok => 0
  | .invalidPartition => 1
  | .keyGeneration => 2
  | .bufferShapeMismatch => 3
  | .nodeExecution => 4
  | .device => 5
  | .graphCancelled => 6
  | .nullPointer => 7
  | .invalidHandle => 8
  | .panic => 9
  | .invalidArgument => 10

/-- The outcome that an error's root cause stands for. -/
def RunError.status (e : RunError) : Status :=
  match e.rootCause with
  | .invalidPartition .. | .unknownPartition _ => .invalidPartition
  | .keyGeneration .. => .keyGeneration
  | .bufferShape .. => .bufferShapeMismatch
  | .nodeExecution .. | .remote .. => .nodeExecution
  | .device _ => .device
  | .graphCancelled .. | .cancelled | .contextShutDown => .graphCancelled
  | .valueKind .. | .invalidGraph _ | .unknownValue _ | .missingArgument _ | .invalidArtifact _
  | .initialization _ => .invalidArgument

/-- No error stands for success. -/
theorem RunError.status_ne_ok (e : RunError) : e.status ≠ .ok := by
  unfold status
  split <;> decide

end HomCircuit
