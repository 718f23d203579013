import HomCircuit.Json.Access
import HomCircuit.Key.Cache

/-!
# HomCircuit.Report.Key

Parameters and key material as JSON reports, and parameters read from them.

A partition is an object whose members are its parameters; on reading, only the name and the three
dimensions have to be there. Long byte strings and ciphertexts are reported by length and hash.

* `Partition.report`, `Partition.derivedReport`, `Partition.ofReport?`;
* `KeySet.report`, `KeySeed.report`, `Ciphertext.report`;
* `KeyError.report`, `BlobError.report` — the kind of an error and its text.
-/

namespace HomCircuit

open Json (ofNat ofWord ofReal)

/-! ## bytes and ciphertexts -/

/-- A byte string in hexadecimal, or its length and hash when it is longer than 400 bytes. -/
def bytesReport (bs : List UInt8) : Json :=
  if bs.length ≤ 400 then .text (Text.hexBytes bs)
  else .record [("len", .nat bs.length), ("fnv", ofWord (Hash.fnv1a bs))]

/-- The words of a ciphertext, or its length, hash and outer words when there are more than 20. -/
def Ciphertext.report (ws : Ciphertext) : Json :=
  if ws.length ≤ 20 then .list ofWord ws
  else
    .record [("len", .nat ws.length), ("fnv", ofWord (Hash.fnvWords Hash.fnvBasis ws)),
      ("first", ofWord (ws.headD 0)), ("last", ofWord (ws.getLastD 0))]

/-! ## partitions -/

/-- The name of a key choice. -/
def KeyChoice.label : KeyChoice → String
  | .big => "Big"
  | .small => "Small"

/-- The key choice with a name. -/
def KeyChoice.named? : String → Option KeyChoice
  | "Big" => some .big
  | "Small" => some .small
  | _ => none

/-- A decomposition as a pair. -/
def Decomposition.report (d : Decomposition) : Json := .nats [d.baseLog.toNat, d.level.toNat]

/-- A decomposition from a pair. -/
def Decomposition.ofReport? (j : Json) : Option Decomposition :=
  (j.pairOf? Json.word32? Json.word32?).map fun (b, l) => ⟨b, l⟩

namespace Partition

/-- The parameters of a partition. -/
def members (p : Partition) : List (String × Json) :=
  [("name", .text p.name), ("lwe_dim", ofNat p.lweDim.toNat), ("glwe_dim", ofNat p.glweDim.toNat),
    ("poly_size", ofNat p.polySize.toNat), ("lwe_noise", ofReal p.lweNoise),
    ("glwe_noise", ofReal p.glweNoise), ("pbs", p.bootstrap.report), ("ks", p.keySwitch.report),
    ("message_modulus", ofNat p.messageModulus.toNat),
    ("carry_modulus", ofNat p.carryModulus.toNat),
    ("max_noise_level", .nat p.maxNoiseLevel.toNat), ("log2_p_fail", ofReal p.log2FailureRate),
    ("key", .text p.keyChoice.label)]

/-- A partition as an object. -/
def report (p : Partition) : Json := .record p.members

/-- The parameters and everything that follows from them; a length beyond the largest word is
null. -/
def derivedMembers (p : Partition) : List (String × Json) :=
  p.members ++
    [("big_lwe_dim", ofNat p.bigDim), ("encryption_key_dim", ofNat p.keyDim),
      ("ciphertext_len", if p.ciphertextLength < UInt64.size then ofNat p.ciphertextLength else .null),
      ("plaintext_modulus", ofNat p.plaintextModulus.toNat), ("delta", ofWord p.delta),
      ("encryption_noise", ofReal p.encryptionNoise), ("fingerprint", ofWord p.fingerprint)]

/-- A partition by name and fingerprint. -/
def brief (p : Partition) : Json := .array [.text p.name, ofWord p.fingerprint]

/-- A partition from its parameters. -/
def ofReport? (j : Json) : Option Partition := do
  let base : Partition :=
    { name := ← j.field "name" Json.text?
      lweDim := ← j.field "lwe_dim" Json.word64?
      glweDim := ← j.field "glwe_dim" Json.word64?
      polySize := ← j.field "poly_size" Json.word64? }
  some
    { base with
      lweNoise := ← j.withDefault "lwe_noise" Json.real? base.lweNoise
      glweNoise := ← j.withDefault "glwe_noise" Json.real? base.glweNoise
      bootstrap := ← j.withDefault "pbs" Decomposition.ofReport? base.bootstrap
      keySwitch := ← j.withDefault "ks" Decomposition.ofReport? base.keySwitch
      messageModulus := ← j.withDefault "message_modulus" Json.word64? base.messageModulus
      carryModulus := ← j.withDefault "carry_modulus" Json.word64? base.carryModulus
      maxNoiseLevel := ← j.withDefault "max_noise_level" Json.word32? base.maxNoiseLevel
      log2FailureRate := ← j.withDefault "log2_p_fail" Json.real? base.log2FailureRate
      keyChoice :=
        ← j.withDefault "key" (fun c => c.text? >>= KeyChoice.named?) base.keyChoice }

end Partition

/-! ## keys -/

/-- Both seeds. -/
def KeySeed.report (s : KeySeed) : Json :=
  .array [ofNat s.secret.toNat, ofNat s.encryption.toNat]

/-- Seeds from a pair. -/
def KeySeed.ofReport? (j : Json) : Option KeySeed :=
  (j.pairOf? Json.word64? Json.word64?).map fun (s, e) => ⟨s, e⟩

/-- A key as a text of zeros and ones, when it has at most 130 coefficients. -/
def keyMember (name : String) (key : List Bool) : List (String × Json) :=
  if key.length ≤ 130 then
    [(name, .text (String.ofList (key.map fun b => if b then '1' else '0')))]
  else []

/-- What a key set consists of. -/
def KeySet.members (k : KeySet) : List (String × Json) :=
  [("small_len", .nat k.small.length), ("big_len", .nat k.big.length),
    ("key_fnv", ofWord (Hash.fnv1a k.keyBytes)), ("size_bytes", .nat k.sizeBytes),
    ("seed", k.seed.report), ("partition", .text k.partition.name)]
  ++ keyMember "small" k.small ++ keyMember "big" k.big

/-- A key set as an object. -/
def KeySet.report (k : KeySet) : Json := .record k.members

/-- A key set by partition and hash. -/
def SharedKeys.report (s : SharedKeys) : Json :=
  .record [("partition", .text s.keys.partition.name),
    ("key_fnv", ofWord (Hash.fnv1a s.keys.keyBytes))]

/-- A stored key set. -/
def KeyBlob.report (b : KeyBlob) : Json :=
  .record [("version", .nat b.version.toNat), ("partition", b.partition.report),
    ("seed", b.seed.report), ("key_bytes", bytesReport b.keyBytes)]

/-! ## errors -/

/-- The name of a cause. -/
def BlobError.kind : BlobError → String
  | .io _ => "Io"
  | .serialization _ => "Serialization"
  | .deserialization _ => "Deserialization"
  | .versionMismatch .. => "VersionMismatch"
  | .invalidMagic _ => "InvalidMagic"
  | .truncated _ => "Truncated"
  | .checksumMismatch => "ChecksumMismatch"

/-- The name of a cause. -/
def KeyError.kind : KeyError → String
  | .invalidPartition .. => "InvalidPartition"
  | .keyGeneration .. => "KeyGeneration"
  | .unknownPartition _ => "UnknownPartition"
  | .ciphertextShape .. => "CiphertextShape"
  | .blob _ => "Blob"

/-- Kind and text of an error. -/
def errorReport (kind message : String) : Json :=
  .record [("error", .text kind), ("message", .text message)]

/-- Whether a cause carries a text of its own; malformed content is reported by its kind alone. -/
def BlobError.hasText : BlobError → Bool
  | .serialization _ | .deserialization _ => false
  | _ => true

/-- The report of a stored key set that cannot be read. -/
def BlobError.report (e : BlobError) : Json :=
  if e.hasText then errorReport e.kind e.message else .record [("error", .text e.kind)]

/-- The report of parameters or keys that cannot be used. -/
def KeyError.report (e : KeyError) : Json :=
  match e with
  | .blob b =>
    .record ([("error", .text e.kind), ("blob", .text b.kind)] ++
      if b.hasText then [("message", .text e.message)] else [])
  | _ => errorReport e.kind e.message

/-! ## changes to stored bytes -/

/-- Bytes with others written over them from a place on, unless they do not fit. -/
def overwrite (bs : List UInt8) (start : Nat) (new : List UInt8) : Option (List UInt8) :=
  if start + new.length ≤ bs.length then
    some (bs.take start ++ new ++ bs.drop (start + new.length))
  else none

/-- Bytes of a stored key set with the checksum that belongs to them. -/
def fixChecksum (bs : List UInt8) : Option (List UInt8) :=
  if bs.length < 18 then none else overwrite bs 10 (UInt64.toBytes (Hash.fnv1a (bs.drop 18)))

/-- One change to bytes; `none` inside stands for a place that does not exist. -/
def changeBytes? (bs : List UInt8) (j : Json) : Option (Option (List UInt8)) :=
  match j with
  | .object [(some "append", a)] => do some (some (bs ++ (← a.bytes?)))
  | .object [(some "truncate", n)] => do some (some (bs.take (← n.nat?)))
  | .object [(some "fix", _)] => some (fixChecksum bs)
  | _ => do some (overwrite bs (← j.field "at" Json.nat?) (← j.field "set" Json.bytes?))

/-- Changes to bytes in order. -/
def changeAll? : List UInt8 → List Json → Option (Option (List UInt8))
  | bs, [] => some (some bs)
  | bs, j :: rest => do
    match ← changeBytes? bs j with
    | none => some none
    | some bs => changeAll? bs rest

end HomCircuit
