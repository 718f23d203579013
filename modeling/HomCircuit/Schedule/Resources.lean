import HomCircuit.Backend.Inventory
import HomCircuit.Remote.Worker
import HomCircuit.Schedule.Cancellation

/-!
# HomCircuit.Schedule.Resources

What the calls of one context share and change: cached keys, devices, remote workers, the epoch of
cancellations, and a record of the primitives called.

Each function here is one section of a job, that is, it happens at once.
-/

namespace HomCircuit

/-- What the calls of one context share. -/
structure Resources where
  keys : KeyCache
  /-- The devices, in a context that uses them. -/
  inventory : Option Inventory := none
  remotes : List RemoteWorker := []
  cancellation : Cancellation := {}
  /-- Primitives called, the latest first. -/
  calls : List PrimitiveCall := []
  deriving Inhabited

namespace Resources

/-- Whether there is any device. -/
def hasDevices (r : Resources) : Bool := r.inventory.any Inventory.hasDevices

/-- The keys of a partition. -/
def fetchKeys (p : Partition) (seed : KeySeed) (r : Resources) :
    Except RunError KeySet × Resources :=
  let (result, keys) := r.keys.getOrCreate p seed
  ((result.map (·.keys)).mapError .ofKey, { r with keys })

/-- Gives back what buffers hold on devices. -/
def drop (bs : List Buffer) (r : Resources) : Resources :=
  { r with inventory := r.inventory.map (·.dropBuffers bs) }

/-- A host copy of a buffer. -/
def toHost (b : Buffer) (r : Resources) : Except RunError Value × Resources :=
  match b.hostValue?, r.inventory with
  | some value, _ => (.ok value, r)
  | none, none => (.error (.device .noDevice), r)
  | none, some v =>
    let (value, v) := v.toHost b
    (value.mapError .device, { r with inventory := some v })

/-- The processor had to take over from a device. -/
def recordFallback (r : Resources) : Resources :=
  { r with inventory := r.inventory.map Inventory.recordFallback }

/-- Takes a number for the link of a remote worker. -/
def queueUp (worker : Nat) (r : Resources) : Nat × Resources :=
  match r.remotes[worker]? with
  | none => (0, r)
  | some w =>
    let (ticket, queue) := w.queue.join
    (ticket, { r with remotes := r.remotes.set worker { w with queue } })

/-- Whether the holder of a number may use the link of a remote worker. -/
def mayUse (worker ticket : Nat) (r : Resources) : Bool :=
  r.remotes[worker]?.all (·.queue.serves ticket)

/-- The link of a remote worker is free for the next number. -/
def leaveLink (worker : Nat) (r : Resources) : Resources :=
  { r with remotes := r.remotes.modify worker fun w => { w with queue := w.queue.leave } }

/-- Runs one operation on a remote worker, and tells which primitives it called. -/
def runRemote (worker : Nat) (n : Node) (p : Partition) (source : Option Partition)
    (seed : KeySeed) (inputs : List Ciphertext) (nonce : UInt64) (r : Resources) :
    (Except RunError Ciphertext × List PrimitiveCall) × Resources :=
  match r.remotes[worker]? with
  | none => ((.error (.remote worker "no such worker"), []), r)
  | some w =>
    let (result, w) := w.execute n p source seed inputs nonce
    let (calls, w) := w.takeCalls
    ((result, calls), { r with remotes := r.remotes.set worker w })

/-- Changes the cancellations. -/
def withCancellation (f : Cancellation → Cancellation) (r : Resources) : Resources :=
  { r with cancellation := f r.cancellation }

/-- A primitive sends its signals. -/
def signal (signals : List Signal) (r : Resources) : Resources :=
  r.withCancellation fun c =>
    signals.foldl
      (fun c s =>
        match s with
        | .cancelHanded => c.raiseHanded
        | .cancelInFlight => c.advance)
      c

/-- A primitive was called: it is put on record and sends its signals. -/
def announce (ps : Primitives) (r : Resources) (c : PrimitiveCall) : Resources :=
  { r with calls := c :: r.calls }.signal (ps.signals c.op)

end Resources

end HomCircuit
