import HomCircuit.Key.Set

/-!
# HomCircuit.Key.Blob

A key set as bytes.

```
"CFKEY"  version : 4  flags : 1  checksum of the payload : 8  payload
payload  =  partition, both seeds, one byte a coefficient
```

Integers are little-endian, the checksum is FNV-1a, and the flags are ignored.

* `KeyBlob.toBytes`, `KeyBlob.ofBytes` — the stored form and its reader;
* `KeyBlob.ofKeySet`, `KeyBlob.toKeySet` — to and from usable keys.
-/

namespace HomCircuit

/-- Stored key material. -/
structure KeyBlob where
  /-- The version that the blob was read with or will be written as. -/
  version : UInt32
  partition : Partition
  seed : KeySeed
  keyBytes : List UInt8
  deriving DecidableEq, Inhabited

/-- Both seeds. -/
def KeySeed.format : Format KeySeed :=
  (Format.word64.pair Format.word64).via (fun s => (s.secret, s.encryption)) fun (s, e) => ⟨s, e⟩

namespace KeyBlob

/-- The first bytes of every blob. -/
def magic : List UInt8 := utf8Bytes "CFKEY"

/-- The newest version. -/
def currentVersion : UInt32 := 1

/-- Bytes before the payload. -/
def headerLength : Nat := 18

/-- What the checksum covers. -/
def payloadFormat : Format (Partition × KeySeed × List UInt8) :=
  Partition.format.pair (KeySeed.format.pair (Format.list Format.byte))

/-- The payload of a blob. -/
def payload (b : KeyBlob) : List UInt8 := payloadFormat.write (b.partition, b.seed, b.keyBytes)

/-- The stored form, always of the current version. -/
def toBytes (b : KeyBlob) : List UInt8 :=
  magic ++ UInt32.toBytes currentVersion ++ [0]
    ++ UInt64.toBytes (Hash.fnv1a b.payload) ++ b.payload

/-- A little-endian field of a header. -/
def headerField (bytes : List UInt8) (start length : Nat) : Nat :=
  ofLittleEndian ((bytes.drop start).take length)

/-- Reads a stored blob. The magic is checked first, then the length, the version, the checksum
and the payload; bytes after the payload's end are left alone. -/
def ofBytes (bytes : List UInt8) : Except BlobError KeyBlob :=
  let found := bytes.take magic.length
  if bytes.length < magic.length then .error (.truncated bytes.length)
  else if found ≠ magic then .error (.invalidMagic found)
  else if bytes.length < headerLength then .error (.truncated bytes.length)
  else
    let version := UInt32.ofNat (headerField bytes 5 4)
    if version = 0 ∨ currentVersion < version then
      .error (.versionMismatch version currentVersion)
    else
      let payload := bytes.drop headerLength
      if (Hash.fnv1a payload).toNat ≠ headerField bytes 10 8 then .error .checksumMismatch
      else
        match payloadFormat.read payload with
        | none => .error (.deserialization "malformed payload")
        | some ((partition, seed, keyBytes), _) => .ok { version, partition, seed, keyBytes }

/-- The blob of a key set. -/
def ofKeySet (k : KeySet) : KeyBlob :=
  { version := currentVersion, partition := k.partition, seed := k.seed, keyBytes := k.keyBytes }

/-- The keys of a blob, if its partition and coefficients can be used. -/
def toKeySet (b : KeyBlob) : Except KeyError KeySet :=
  KeySet.ofKeyBytes b.partition b.seed b.keyBytes

end KeyBlob

end HomCircuit
