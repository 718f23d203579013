import HomCircuit.Error
import HomCircuit.Key.Set

/-!
# HomCircuit.Value

What flows along the edges of a circuit.

* `Value` — a ciphertext, a plain number, or the simulated stand-in for a ciphertext;
* `Buffer` — a value in its slot: on the host, or resident on a device.
-/

namespace HomCircuit

/-- A stand-in for a ciphertext: the message it would decrypt to, and a noise variance as a squared
fraction of the torus. -/
structure Simulated where
  shadow : UInt64
  variance : Float
  deriving Inhabited

/-- The standard deviation of the noise. -/
def Simulated.deviation (s : Simulated) : Float := s.variance.sqrt

/-- A value on the host. -/
inductive Value
  | ciphertext (words : Ciphertext)
  | cleartext (number : UInt64)
  | simulated (s : Simulated)
  deriving Inhabited

namespace Value

/-- The name of a kind of value. -/
def kind : Value → String
  | .ciphertext _ => "ciphertext"
  | .cleartext _ => "cleartext"
  | .simulated _ => "simulated"

/-- The words of a ciphertext. -/
def ciphertext? : Value → Option Ciphertext
  | .ciphertext words => some words
  | _ => none

/-- The content of a simulated value. -/
def simulated? : Value → Option Simulated
  | .simulated s => some s
  | _ => none

/-- Size in 64-bit words. -/
def words : Value → Nat
  | .ciphertext words => words.length
  | .cleartext _ => 1
  | .simulated _ => 2

end Value

/-- The name of an allocation on a device. -/
structure DeviceHandle where
  device : DeviceId
  slot : Nat
  words : Nat
  deriving DecidableEq, Inhabited

/-- Size of an allocation. -/
def DeviceHandle.bytes (h : DeviceHandle) : Nat := h.words * 8

/-- An allocation and the place in the inventory of the device that made it. -/
structure Resident where
  owner : Nat
  handle : DeviceHandle
  deriving DecidableEq, Inhabited

/-- Where a value is. -/
inductive Payload
  | host (value : Value)
  | device (resident : Resident)
  deriving Inhabited

/-- A value in its slot. -/
structure Buffer where
  value : ValueId
  partition : PartitionId
  payload : Payload
  deriving Inhabited

namespace Buffer

/-- A value on the host. -/
def ofHost (value : ValueId) (partition : PartitionId) (v : Value) : Buffer :=
  ⟨value, partition, .host v⟩

/-- The value, when it is on the host. -/
def hostValue? (b : Buffer) : Option Value :=
  match b.payload with
  | .host v => some v
  | .device _ => none

/-- The allocation, when the value is on a device. -/
def resident? (b : Buffer) : Option Resident :=
  match b.payload with
  | .host _ => none
  | .device r => some r

/-- Whether the value is on the host. -/
def onHost (b : Buffer) : Bool := b.hostValue?.isSome

/-- Size in 64-bit words, wherever the value is. -/
def words (b : Buffer) : Nat :=
  match b.payload with
  | .host v => v.words
  | .device r => r.handle.words

end Buffer

end HomCircuit
