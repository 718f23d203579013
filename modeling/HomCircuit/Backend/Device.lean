import HomCircuit.Value
import HomCircuit.Backend.Outcome

/-!
# HomCircuit.Backend.Device

An emulated device: memory of a fixed size, allocations under numbers that never come back, and a
switch that makes everything but freeing fail.

* `Device.upload`, `Device.download`, `Device.free` — movements;
* `Device.execute` — an operation on allocations, whose output is a new allocation.
-/

namespace HomCircuit

/-- An emulated device. -/
structure Device where
  id : DeviceId
  capacity : Nat
  primitives : Primitives := .reference
  /-- Whether the primitives are those of the context, whose calls are on record. -/
  recorded : Bool := false
  buffers : List (Nat × Ciphertext) := []
  nextSlot : Nat := 0
  usedBytes : Nat := 0
  faulted : Bool := false
  deriving Inhabited

namespace Device

/-- The name of a device. -/
def name (d : Device) : String := s!"emulated-{d.id.index}"

/-- Number of allocations. -/
def allocations (d : Device) : Nat := d.buffers.length

/-- Bytes in use per word. -/
def wordBytes : Nat := 8

/-- The error of a device that is out of order. -/
def faultError (d : Device) : DeviceError := .faulted d.id "device marked faulted"

/-- A new allocation, if it fits. -/
def allocate (d : Device) (words : Ciphertext) : Except DeviceError (DeviceHandle × Device) :=
  let bytes := words.length * wordBytes
  let available := d.capacity - d.usedBytes
  if available < bytes then .error (.outOfMemory d.id bytes available)
  else
    .ok (⟨d.id, d.nextSlot, words.length⟩,
      { d with
        buffers := (d.nextSlot, words) :: d.buffers
        nextSlot := d.nextSlot + 1
        usedBytes := d.usedBytes + bytes })

/-- The words of an allocation. -/
def read (d : Device) (handle : DeviceHandle) : Except DeviceError Ciphertext :=
  match d.buffers.lookup handle.slot with
  | some words => .ok words
  | none => .error (.invalidHandle d.id handle.slot)

/-- Copies words into a new allocation. -/
def upload (d : Device) (words : Ciphertext) : Except DeviceError (DeviceHandle × Device) :=
  if d.faulted then .error d.faultError else d.allocate words

/-- Copies an allocation back. -/
def download (d : Device) (handle : DeviceHandle) : Except DeviceError Ciphertext :=
  if d.faulted then .error d.faultError else d.read handle

/-- Gives an allocation back; a number that is not in use is ignored. -/
def free (d : Device) (handle : DeviceHandle) : Device :=
  match d.buffers.lookup handle.slot with
  | none => d
  | some words =>
    { d with
      buffers := d.buffers.filter (·.1 ≠ handle.slot)
      usedBytes := d.usedBytes - words.length * wordBytes }

/-- The words of all inputs, or the error of the first that is missing. -/
def readAll (d : Device) : List DeviceHandle → Except DeviceError (List Ciphertext)
  | [] => .ok []
  | h :: rest => do
    let words ← d.read h
    let others ← d.readAll rest
    .ok (words :: others)

/-- The inputs of an operation, if the device is in order and has them all. -/
def inputsOf (d : Device) (handles : List DeviceHandle) : Except DeviceError (List Ciphertext) :=
  if d.faulted then .error d.faultError else d.readAll handles

/-- An operation on allocations. -/
def execute (d : Device) (op : Operation) (handles : List DeviceHandle) (keys : OperationKeys)
    (nonce : UInt64) : Outcome DeviceError (DeviceHandle × Device) :=
  match d.inputsOf handles with
  | .error e => .failed e
  | .ok inputs =>
    match d.primitives.run op inputs keys nonce with
    | .crashed text => .crashed text
    | .failed e => .failed (.kernel d.id e.message)
    | .done words => .ofExcept (d.allocate words)

end Device

end HomCircuit
