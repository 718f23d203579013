import HomCircuit.Error
import HomCircuit.Text.LowerCase

/-!
# HomCircuit.Backend.Mode

Where a node runs.

* `Mode` — what a whole context runs on, and how its name is read;
* `choose` — the target of one node and the reason for it: simulation before a remote worker, a
  remote worker before a device, and the processor for the rest.
-/

namespace HomCircuit

/-- What a context runs on. -/
inductive Mode
  | cpu
  | accelerator
  | simulation
  deriving DecidableEq, Inhabited

/-- The name of a mode. -/
def Mode.label : Mode → String
  | .cpu => "CPU"
  | .accelerator => "Accelerator"
  | .simulation => "Simulation"

/-- The mode that a text names, in any case. -/
def Mode.parse (s : String) : Except RunError Mode :=
  match Text.lower s with
  | "cpu" => .ok .cpu
  | "accelerator" | "gpu" => .ok .accelerator
  | "simulation" | "sim" => .ok .simulation
  | _ => .error (.initialization s!"unknown execution mode '{s}'")

/-- Where a node is sent. -/
inductive Target
  | cpu
  | accelerator
  | simulation
  | remote (worker : Nat)
  deriving DecidableEq, Inhabited

/-- A target and the reason for it. -/
structure Decision where
  target : Target
  reason : String
  deriving DecidableEq

/-- The target of a node, given the mode, whether there are devices, and a worker that the node is
assigned to. -/
def choose (n : Node) (mode : Mode) (devices : Bool) (worker : Option Nat) : Decision :=
  match mode, worker with
  | .simulation, _ => ⟨.simulation, "simulation mode"⟩
  | _, some w => ⟨.remote w, "assigned to remote worker"⟩
  | .accelerator, none =>
    if !n.eligible then ⟨.cpu, "node not accelerator-eligible"⟩
    else if !devices then ⟨.cpu, "no accelerator device available"⟩
    else ⟨.accelerator, "accelerator-eligible node"⟩
  | .cpu, none => ⟨.cpu, "CPU mode"⟩

/-- Which device serves next. -/
inductive SelectionPolicy
  | roundRobin
  /-- The device with the fewest bytes in use, and of several the lowest number. -/
  | leastLoaded
  deriving DecidableEq, Inhabited

/-- The name of a policy. -/
def SelectionPolicy.label : SelectionPolicy → String
  | .roundRobin => "RoundRobin"
  | .leastLoaded => "LeastLoaded"

/-- The policy that a text names, in any case. -/
def SelectionPolicy.parse (s : String) : Except RunError SelectionPolicy :=
  match Text.lower s with
  | "round_robin" | "round-robin" => .ok .roundRobin
  | "least_loaded" | "least-loaded" => .ok .leastLoaded
  | _ => .error (.initialization s!"unknown device selection policy '{s}'")

end HomCircuit
