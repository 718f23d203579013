import HomCircuit.Partition.Basic
import HomCircuit.Key.Error
import HomCircuit.Text.Blank
import HomCircuit.Decimal.Notation

/-!
# HomCircuit.Partition.Validation

The parameters that can be used. `Partition.fault?` names the first malformed parameter, in a fixed
order of checks, and `Partition.validate` makes an error of it.
-/

namespace HomCircuit

/-- Upper bound on a key dimension. -/
def maxKeyDim : Nat := 1 <<< 20

/-- Whether a word is a power of two: it is its own largest power of two. -/
def isPowerOfTwo (w : UInt64) : Bool := w.toNat = 1 <<< w.toNat.log2

namespace Partition

/-- A check fails with a text, or passes. -/
def check (ok : Bool) (reason : String) : Option String := if ok then none else some reason

/-- A dimension has to be positive. -/
def dimFault? (field : String) (value : UInt64) : Option String :=
  check (value ≠ 0) s!"{field} must be positive"

/-- A deviation lies strictly between 0 and 1. -/
def noiseFault? (field : String) (value : Binary64) : Option String :=
  check (Binary64.zero.lt value && value.lt .one)
    s!"{field} must be in (0, 1), got {Decimal.plain value}"

/-- A decomposition has digits, and all of them fit in a word. -/
def gadgetFault? (name : String) (d : Decomposition) : Option String :=
  check (d.baseLog ≠ 0 && d.level ≠ 0) s!"{name}_base_log and {name}_level must be positive"
  <|> check (min (d.baseLog.toNat * d.level.toNat) (UInt32.size - 1) ≤ 64)
    s!"{name} decomposition {d.baseLog}x{d.level} exceeds 64 bits"

/-- A modulus is a power of two. -/
def modulusFault? (field : String) (value : UInt64) : Option String :=
  check (isPowerOfTwo value) s!"{field} must be a power of two, got {value}"

/-- The first malformed parameter. -/
def fault? (p : Partition) : Option String :=
  check (!Text.isBlankText p.name) "name must not be empty"
  <|> dimFault? "lwe_dim" p.lweDim
  <|> dimFault? "glwe_dim" p.glweDim
  <|> dimFault? "poly_size" p.polySize
  <|> check (isPowerOfTwo p.polySize) s!"poly_size must be a power of two, got {p.polySize}"
  <|> check (p.lweDim.toNat ≤ maxKeyDim && p.bigDim ≤ maxKeyDim)
    s!"key dimension exceeds {maxKeyDim} (lwe_dim={p.lweDim}, glwe_dim*poly_size={p.bigDim})"
  <|> noiseFault? "lwe_noise_std_dev" p.lweNoise
  <|> noiseFault? "glwe_noise_std_dev" p.glweNoise
  <|> gadgetFault? "pbs" p.bootstrap
  <|> gadgetFault? "ks" p.keySwitch
  <|> modulusFault? "message_modulus" p.messageModulus
  <|> modulusFault? "carry_modulus" p.carryModulus
  <|> check (p.plaintextModulus ≤ 0x10000)
    s!"message_modulus * carry_modulus must be at most 2^16, got {p.plaintextModulus}"
  <|> check (p.maxNoiseLevel ≠ 0) "max_noise_level must be positive"
  <|> check (p.log2FailureRate.le .zero)
    s!"log2_p_fail must be at most 0, got {Decimal.plain p.log2FailureRate}"

/-- Refuses a partition with a malformed parameter. -/
def validate (p : Partition) : Except KeyError Unit :=
  match p.fault? with
  | some reason => .error (.invalidPartition p.name reason)
  | none => .ok ()

/-- A partition whose parameters can be used. -/
def Valid (p : Partition) : Prop := p.fault? = none

instance (p : Partition) : Decidable p.Valid := inferInstanceAs (Decidable (_ = none))

theorem validate_eq_ok_iff {p : Partition} : p.validate = .ok () ↔ p.Valid := by
  unfold validate Valid
  split <;> simp_all

end Partition

end HomCircuit
