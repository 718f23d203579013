import HomCircuit.Backend.Device
import HomCircuit.Backend.Mode
import HomCircuit.Job

/-!
# HomCircuit.Backend.Inventory

The devices of one context and the operations that are sent to them.

An operation selects a device, brings its inputs there, runs, and leaves the output on the device or
brings it back. Inputs are moved only if they are not on that device already; what was moved for one
operation is freed when it ends, however it ends.

* `Inventory.select` — the next device by the policy;
* `Inventory.operate` — one operation as a job, `Inventory.execute` — the same at once;
* `Inventory.toHost` — a host copy of a buffer;
* `TransferCounters` — movements, executions and fallbacks so far.
-/

namespace HomCircuit

/-- What an inventory counts. -/
structure TransferCounters where
  uploads : Nat := 0
  downloads : Nat := 0
  bytesToDevice : Nat := 0
  bytesToHost : Nat := 0
  executions : Nat := 0
  fallbacks : Nat := 0
  deriving DecidableEq, Inhabited

/-- The devices of one context. -/
structure Inventory where
  devices : Array Device
  policy : SelectionPolicy
  /-- How often a device was selected in turn. -/
  cursor : Nat := 0
  counters : TransferCounters := {}
  deriving Inhabited

namespace Inventory

/-- Devices of equal size under numbers from zero. -/
def emulated (count capacity : Nat) (policy : SelectionPolicy) : Inventory :=
  { devices := (Array.range count).map fun i => { id := ⟨UInt32.ofNat i⟩, capacity }
    policy }

/-- Whether there is any device. -/
def hasDevices (v : Inventory) : Bool := !v.devices.isEmpty

/-- Counts something. -/
def count (v : Inventory) (f : TransferCounters → TransferCounters) : Inventory :=
  { v with counters := f v.counters }

/-- The device at a place. -/
def device (v : Inventory) (i : Nat) : Device := v.devices.getD i default

/-- Changes the device at a place. -/
def setDevice (v : Inventory) (i : Nat) (d : Device) : Inventory :=
  { v with devices := v.devices.setIfInBounds i d }

/-- The processor had to take over. -/
def recordFallback (v : Inventory) : Inventory :=
  v.count fun n => { n with fallbacks := n.fallbacks + 1 }

/-! ## selection -/

/-- Whether one device is preferred to another: fewer bytes in use, then the lower number. -/
def lighter (a b : Device) : Bool :=
  a.usedBytes < b.usedBytes || (a.usedBytes == b.usedBytes && a.id.index < b.id.index)

/-- The place of the preferred device, the first of equals. -/
def lightest? (v : Inventory) : Option Nat :=
  (List.range v.devices.size).foldl
    (fun best i =>
      match best with
      | none => some i
      | some b => if lighter (v.device i) (v.device b) then some i else some b)
    none

/-- The place of the next device; the turn moves on with every selection. -/
def select (v : Inventory) : Except DeviceError Nat × Inventory :=
  if v.devices.isEmpty then (.error .noDevice, v)
  else
    match v.policy with
    | .roundRobin => (.ok (v.cursor % v.devices.size), { v with cursor := v.cursor + 1 })
    | .leastLoaded =>
      match v.lightest? with
      | some i => (.ok i, v)
      | none => (.error .noDevice, v)

/-! ## movements -/

/-- Copies words to a device, on the books. -/
def upload (v : Inventory) (i : Nat) (words : Ciphertext) :
    Except DeviceError DeviceHandle × Inventory :=
  match (v.device i).upload words with
  | .error e => (.error e, v)
  | .ok (h, d) =>
    (.ok h, (v.setDevice i d).count fun n =>
      { n with uploads := n.uploads + 1, bytesToDevice := n.bytesToDevice + h.bytes })

/-- Copies an allocation to the host, on the books. -/
def download (v : Inventory) (r : Resident) : Except DeviceError Ciphertext × Inventory :=
  match (v.device r.owner).download r.handle with
  | .error e => (.error e, v)
  | .ok words =>
    (.ok words, v.count fun n =>
      { n with downloads := n.downloads + 1, bytesToHost := n.bytesToHost + r.handle.bytes })

/-- Gives an allocation back to its device. -/
def free (v : Inventory) (r : Resident) : Inventory :=
  v.setDevice r.owner ((v.device r.owner).free r.handle)

/-- Gives back what a buffer holds on a device, if anything. -/
def dropBuffer (v : Inventory) (b : Buffer) : Inventory :=
  match b.resident? with
  | some r => v.free r
  | none => v

/-- Gives back what several buffers hold. -/
def dropBuffers (v : Inventory) (bs : List Buffer) : Inventory := bs.foldl dropBuffer v

/-- A host copy of a buffer. -/
def toHost (v : Inventory) (b : Buffer) : Except DeviceError Value × Inventory :=
  match b.payload with
  | .host value => (.ok value, v)
  | .device r =>
    let (words, v) := v.download r
    (words.map .ciphertext, v)

/-! ## execution -/

/-- Brings one input to a device: its handle there, and whether it was moved for this purpose. -/
def stage (i : Nat) (b : Buffer) : Job Inventory (Except DeviceError (DeviceHandle × Bool)) :=
  let moveIn (words : Ciphertext) : Job Inventory (Except DeviceError (DeviceHandle × Bool)) := do
    let h ← Job.atomic (·.upload i words)
    return h.map (·, true)
  match b.payload with
  | .host (.ciphertext words) => moveIn words
  | .host other =>
    Job.look fun v => .error (.kernel (v.device i).id s!"cannot upload a {other.kind} value")
  | .device r => do
    if (← Job.look fun v => r.handle.device == (v.device i).id) then return .ok (r.handle, false)
    match ← Job.atomic (·.download r) with
    | .error e => return .error e
    | .ok words => moveIn words

/-- Brings all inputs to a device, collecting handles and moved allocations. -/
def stageAll (i : Nat) (handles moved : List DeviceHandle) :
    List Buffer → Job Inventory (Except DeviceError (List DeviceHandle) × List DeviceHandle)
  | [] => return (.ok handles.reverse, moved)
  | b :: rest => do
    match ← stage i b with
    | .error e => return (.error e, moved)
    | .ok (h, fresh) => stageAll i (h :: handles) (if fresh then h :: moved else moved) rest

/-- Frees what was moved for one operation. -/
def unstage (i : Nat) : List DeviceHandle → Job Inventory Unit
  | [] => return ()
  | h :: rest => do
    Job.change (·.free ⟨i, h⟩)
    unstage i rest

/-- Keeps the output of an operation on its device, if there is room. -/
def keepOutput (v : Inventory) (i : Nat) (words : Ciphertext) :
    Except DeviceError DeviceHandle × Inventory :=
  match (v.device i).allocate words with
  | .error e => (.error e, v)
  | .ok (h, d) =>
    (.ok h, (v.setDevice i d).count fun n => { n with executions := n.executions + 1 })

/-- An operation on allocations of one device, whose output is a new allocation there. -/
def compute (i : Nat) (op : Operation) (handles : List DeviceHandle) (keys : OperationKeys)
    (nonce : UInt64) : Job Inventory (Outcome DeviceError DeviceHandle) := do
  let (inputs, d) ← Job.look fun v => ((v.device i).inputsOf handles, v.device i)
  match inputs with
  | .error e => return .failed e
  | .ok inputs =>
    if d.recorded then Job.tell [⟨op, nonce⟩]
    match d.primitives.run op inputs keys nonce with
    | .crashed text => return .crashed text
    | .failed e => return .failed (.kernel d.id e.message)
    | .done words => return .ofExcept (← Job.atomic (·.keepOutput i words))

/-- Leaves an output where it is, or brings it back. -/
def settle (i : Nat) (h : DeviceHandle) (keep : Bool) :
    Job Inventory (Outcome DeviceError (Payload × DeviceId)) := do
  let id ← Job.look fun v => (v.device i).id
  if keep then return .done (.device ⟨i, h⟩, id)
  let words ← Job.atomic (·.download ⟨i, h⟩)
  Job.change (·.free ⟨i, h⟩)
  return .ofExcept (words.map fun w => (.host (.ciphertext w), id))

/-- Sends an operation to the next device, leaving the output there if `keep` is set. Operations
of other jobs may come between its sections. -/
def operate (op : Operation) (inputs : List Buffer) (keys : OperationKeys) (nonce : UInt64)
    (keep : Bool) : Job Inventory (Outcome DeviceError (Payload × DeviceId)) := do
  match ← Job.atomic select with
  | .error e => return .failed e
  | .ok i =>
    let (staged, moved) ← stageAll i [] [] inputs
    match staged with
    | .error e => unstage i moved; return .failed e
    | .ok handles =>
      match ← compute i op handles keys nonce with
      | .failed e => unstage i moved; return .failed e
      | .crashed text => unstage i moved; return .crashed text
      | .done h => unstage i moved; settle i h keep

/-- The same with nothing in between. -/
def execute (v : Inventory) (op : Operation) (inputs : List Buffer) (keys : OperationKeys)
    (nonce : UInt64) (keep : Bool) : Outcome DeviceError (Payload × DeviceId) × Inventory :=
  (operate op inputs keys nonce keep).run v

/-! ## summary -/

/-- A summary of the inventory with all counters. -/
def describe (v : Inventory) : String :=
  let n := v.counters
  s!"AcceleratorBackend \x7b devices: {v.devices.size}, policy: {v.policy.label}, " ++
  s!"stats: AcceleratorStats \x7b uploads: {n.uploads}, downloads: {n.downloads}, " ++
  s!"bytes_to_device: {n.bytesToDevice}, bytes_to_host: {n.bytesToHost}, " ++
  s!"executions: {n.executions}, cpu_fallbacks: {n.fallbacks} \x7d \x7d"

end Inventory

end HomCircuit
