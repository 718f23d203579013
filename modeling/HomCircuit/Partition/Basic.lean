import HomCircuit.Hash
import HomCircuit.Format

/-!
# HomCircuit.Partition.Basic

A partition is the full parameter set that a group of ciphertexts shares: key dimensions, noise,
decompositions, and the two moduli that fix how a message sits on the torus.

```
plaintext modulus  =  message modulus * carry modulus
delta              =  2^63 / plaintext modulus        (the top bit stays free)
```

* `Partition.fingerprint` — a hash of every parameter, name included;
* `Partition.same` — numeric equality of all parameters, as the registry compares them;
* `Partition.format` — the binary form.
-/

namespace HomCircuit

/-- A product of 64-bit words, stopped at the largest word. -/
def clampedProduct (a b : UInt64) : Nat := min (a.toNat * b.toNat) (UInt64.size - 1)

/-- Which of the two secret keys fresh ciphertexts are encrypted under. -/
inductive KeyChoice
  /-- The flattened ring key, of dimension `glweDim * polySize`. -/
  | big
  /-- The plain key, of dimension `lweDim`. -/
  | small
  deriving DecidableEq, Inhabited

/-- A key choice as one byte. -/
def KeyChoice.byte : KeyChoice → UInt8
  | .big => 0
  | .small => 1

/-- A gadget decomposition: digits of `baseLog` bits, `level` of them. -/
structure Decomposition where
  baseLog : UInt32
  level : UInt32
  deriving DecidableEq, Inhabited

/-- A named parameter set. -/
structure Partition where
  name : String
  lweDim : UInt64
  glweDim : UInt64
  polySize : UInt64
  /-- Standard deviation of the noise under the plain key, as a fraction of the torus. -/
  lweNoise : Binary64 := .twoPowNeg 40
  /-- Standard deviation of the noise under the ring key. -/
  glweNoise : Binary64 := .twoPowNeg 52
  bootstrap : Decomposition := ⟨23, 1⟩
  keySwitch : Decomposition := ⟨3, 5⟩
  messageModulus : UInt64 := 4
  carryModulus : UInt64 := 4
  maxNoiseLevel : UInt32 := 5
  /-- Base-two logarithm of the failure probability that the parameters were chosen for. -/
  log2FailureRate : Binary64 := ⟨0xc044000000000000⟩
  keyChoice : KeyChoice := .big
  deriving DecidableEq, Inhabited

namespace Partition

/-! ## derived sizes -/

/-- Dimension of the flattened ring key. -/
def bigDim (p : Partition) : Nat := clampedProduct p.glweDim p.polySize

/-- Dimension of the key that fresh ciphertexts are encrypted under. -/
def keyDim (p : Partition) : Nat :=
  match p.keyChoice with
  | .big => p.bigDim
  | .small => p.lweDim.toNat

/-- Words of a ciphertext: the mask and the body. -/
def ciphertextLength (p : Partition) : Nat := p.keyDim + 1

/-- Number of plaintexts. -/
def plaintextModulus (p : Partition) : UInt64 :=
  UInt64.ofNat (clampedProduct p.messageModulus p.carryModulus)

/-- Distance of neighbouring plaintexts on the torus. -/
def delta (p : Partition) : UInt64 := 0x8000000000000000 / max p.plaintextModulus 1

/-- Standard deviation of the noise of a fresh encryption. -/
def encryptionNoise (p : Partition) : Binary64 :=
  match p.keyChoice with
  | .big => p.glweNoise
  | .small => p.lweNoise

/-! ## identity -/

/-- What the fingerprint hashes: the name, a zero byte, and every parameter at its width. -/
def fingerprintBytes (p : Partition) : List UInt8 :=
  utf8Bytes p.name ++ [0]
    ++ UInt64.toBytes p.lweDim ++ UInt64.toBytes p.glweDim ++ UInt64.toBytes p.polySize
    ++ UInt64.toBytes p.lweNoise.bits ++ UInt64.toBytes p.glweNoise.bits
    ++ UInt64.toBytes p.log2FailureRate.bits
    ++ UInt32.toBytes p.bootstrap.baseLog ++ UInt32.toBytes p.bootstrap.level
    ++ UInt32.toBytes p.keySwitch.baseLog ++ UInt32.toBytes p.keySwitch.level
    ++ UInt32.toBytes p.maxNoiseLevel
    ++ UInt64.toBytes p.messageModulus ++ UInt64.toBytes p.carryModulus
    ++ [p.keyChoice.byte]

/-- A stable hash of every parameter. -/
def fingerprint (p : Partition) : UInt64 := Hash.fnv1a p.fingerprintBytes

/-- Equality of all parameters, with the real-valued ones compared as numbers. -/
def same (p q : Partition) : Bool :=
  p.name == q.name && p.lweDim == q.lweDim && p.glweDim == q.glweDim && p.polySize == q.polySize
    && p.lweNoise.eq q.lweNoise && p.glweNoise.eq q.glweNoise
    && p.bootstrap == q.bootstrap && p.keySwitch == q.keySwitch
    && p.messageModulus == q.messageModulus && p.carryModulus == q.carryModulus
    && p.maxNoiseLevel == q.maxNoiseLevel && p.log2FailureRate.eq q.log2FailureRate
    && p.keyChoice == q.keyChoice

end Partition

/-! ## binary form -/

/-- A key choice as the number of its case; other numbers are refused. -/
def KeyChoice.format : Format KeyChoice where
  write
    | .big => Format.word32.write 0
    | .small => Format.word32.write 1
  read bs :=
    match Format.word32.read bs with
    | none => none
    | some (tag, rest) =>
      if tag = 0 then some (.big, rest) else if tag = 1 then some (.small, rest) else none

/-- The two numbers of a decomposition. -/
def Decomposition.format : Format Decomposition :=
  (Format.word32.pair Format.word32).via (fun d => (d.baseLog, d.level)) fun (b, l) => ⟨b, l⟩

/-- Every parameter in the order of declaration. -/
def Partition.format : Format Partition :=
  let dims := Format.word64.pair (Format.word64.pair Format.word64)
  let noise := Format.binary64.pair Format.binary64
  let gadgets := Decomposition.format.pair Decomposition.format
  let moduli := Format.word64.pair Format.word64
  let limits := Format.word32.pair (Format.binary64.pair KeyChoice.format)
  (Format.text.pair (dims.pair (noise.pair (gadgets.pair (moduli.pair limits))))).via
    (fun p => (p.name, (p.lweDim, p.glweDim, p.polySize), (p.lweNoise, p.glweNoise),
      (p.bootstrap, p.keySwitch), (p.messageModulus, p.carryModulus),
      (p.maxNoiseLevel, p.log2FailureRate, p.keyChoice)))
    (fun (name, (lwe, glwe, poly), (lweNoise, glweNoise), (pbs, ks), (message, carry),
        (level, rate, choice)) =>
      { name, lweDim := lwe, glweDim := glwe, polySize := poly, lweNoise, glweNoise
        bootstrap := pbs, keySwitch := ks, messageModulus := message, carryModulus := carry
        maxNoiseLevel := level, log2FailureRate := rate, keyChoice := choice })

end HomCircuit
