import HomCircuit.Partition.Validation
import HomCircuit.Random.Normal

/-!
# HomCircuit.Key.Set

The secret keys of one partition and seed, and encryption under them.

```
ciphertext  =  mask ++ [body]
body        =  ⟨mask, key⟩ + encode message + noise      (all modulo 2^64)
phase       =  body - ⟨mask, key⟩
```

Keys are binary, and everything random comes from a generator derived from the partition's
fingerprint and a seed, so equal inputs give equal keys and equal ciphertexts.

* `KeySet.generate`, `KeySet.ofKeyBytes` — fresh keys, and keys from stored coefficients;
* `KeySet.encrypt`, `KeySet.phase`, `KeySet.decrypt` — encryption and its inverse up to noise.
-/

namespace HomCircuit

/-- A ciphertext: the mask words, then the body. -/
abbrev Ciphertext := List UInt64

/-- Secret keys and encryption randomness are seeded apart. -/
structure KeySeed where
  secret : UInt64 := 0
  encryption : UInt64 := 0
  deriving DecidableEq, Inhabited

/-- Secret key material of one partition and seed. -/
structure KeySet where
  partition : Partition
  seed : KeySeed
  small : List Bool
  big : List Bool
  deriving DecidableEq, Inhabited

/-! ## randomness -/

/-- The purpose word of key generation. -/
def keyGenerationPurpose : UInt64 := 0x6b657967656e0001

/-- The purpose word of encryption. -/
def encryptionPurpose : UInt64 := 0x656e637279700002

/-- The 64 bits of a word, lowest first. -/
def wordBits (w : UInt64) : List Bool :=
  (List.range 64).map fun i => (w >>> UInt64.ofNat i) &&& 1 == 1

/-- A binary key, 64 coefficients a word. -/
def binaryKey (dim : Nat) (g : Random.Generator) : List Bool × Random.Generator :=
  let (words, g) := g.take ((dim + 63) / 64)
  ((words.flatMap wordBits).take dim, g)

/-- A fraction of the torus as a word: scaled by `2^64` and rounded, halves away from zero. -/
def torusWord (fraction : Float) : UInt64 :=
  (fraction * Float.ofBits 0x43f0000000000000).round.toInt64.toUInt64

/-- The sum of the mask words whose coefficient is set, modulo `2^64`. -/
def dot (mask : List UInt64) (key : List Bool) : UInt64 :=
  (mask.zip key).foldl (fun acc (a, s) => if s then acc + a else acc) 0

namespace KeySet

/-! ## generation -/

/-- The keys of a valid partition under a seed. -/
def ofSeed (p : Partition) (seed : KeySeed) : KeySet :=
  let g := Random.Generator.derive keyGenerationPurpose p.fingerprint seed.secret 0
  let (small, g) := binaryKey p.lweDim.toNat g
  let (big, _) := binaryKey p.bigDim g
  { partition := p, seed, small, big }

/-- Fresh keys, refused for a malformed partition. -/
def generate (p : Partition) (seed : KeySeed) : Except KeyError KeySet :=
  match p.validate with
  | .error e => .error e
  | .ok () => .ok (ofSeed p seed)

/-- Keys from one byte a coefficient, plain key first. -/
def ofKeyBytes (p : Partition) (seed : KeySeed) (bytes : List UInt8) : Except KeyError KeySet :=
  match p.validate with
  | .error e => .error e
  | .ok () =>
    let expected := p.lweDim.toNat + p.bigDim
    if bytes.length ≠ expected then
      .error (.keyGeneration p.name
        s!"key material has {bytes.length} coefficients, partition needs {expected}")
    else
      match bytes.findIdx? (1 < ·) with
      | some i => .error (.keyGeneration p.name s!"coefficient {i} is not binary")
      | none =>
        let bits := bytes.map (· == 1)
        .ok { partition := p, seed, small := bits.take p.lweDim.toNat, big := bits.drop p.lweDim.toNat }

/-- The coefficients as one byte each, plain key first. -/
def keyBytes (k : KeySet) : List UInt8 := (k.small ++ k.big).map fun s => if s then 1 else 0

/-- Size of the key material with one word a coefficient. -/
def sizeBytes (k : KeySet) : Nat := (k.small.length + k.big.length) * 8

/-- The key that fresh ciphertexts are encrypted under. -/
def encryptionKey (k : KeySet) : List Bool :=
  match k.partition.keyChoice with
  | .big => k.big
  | .small => k.small

/-- Equality of parameters as numbers, seed and keys. -/
def same (j k : KeySet) : Bool :=
  j.partition.same k.partition && j.seed == k.seed && j.small == k.small && j.big == k.big

/-! ## encoding -/

/-- A message, reduced modulo the plaintext modulus, on the torus. -/
def encode (k : KeySet) (message : UInt64) : UInt64 :=
  message % k.partition.plaintextModulus * k.partition.delta

/-- The plaintext nearest to a torus word. -/
def decode (k : KeySet) (phase : UInt64) : UInt64 :=
  let delta := k.partition.delta
  (phase + delta / 2) / delta % k.partition.plaintextModulus

/-! ## encryption -/

/-- The mask and the noise word that an encryption under a nonce uses. -/
def randomness (k : KeySet) (nonce : UInt64) : List UInt64 × UInt64 :=
  let g := Random.Generator.derive encryptionPurpose k.partition.fingerprint k.seed.encryption nonce
  let (mask, g) := g.take k.encryptionKey.length
  let (noise, _) := Random.normal k.partition.encryptionNoise.toFloat g
  (mask, torusWord noise)

/-- Encryption of a message; the nonce fixes mask and noise. -/
def encrypt (k : KeySet) (message nonce : UInt64) : Ciphertext :=
  let (mask, noise) := k.randomness nonce
  mask ++ [dot mask k.encryptionKey + k.encode message + noise]

/-- The body less what the mask contributes, refused for a ciphertext of another length. -/
def phase (k : KeySet) (ct : Ciphertext) : Except KeyError UInt64 :=
  let expected := k.partition.ciphertextLength
  if ct.length ≠ expected then
    .error (.ciphertextShape k.partition.name expected ct.length)
  else
    .ok (ct.getLastD 0 - dot ct.dropLast k.encryptionKey)

/-- The message of a ciphertext. -/
def decrypt (k : KeySet) (ct : Ciphertext) : Except KeyError UInt64 :=
  (k.phase ct).map k.decode

end KeySet

end HomCircuit
