/-!
# HomCircuit.Key.Error

What can go wrong with parameters, keys and stored keys, and the text of each cause.

* `BlobError` — a stored key set that cannot be read;
* `KeyError` — parameters or key material that cannot be used.
-/

namespace HomCircuit

/-- Why a stored key set cannot be written or read. -/
inductive BlobError
  | io (reason : String)
  | serialization (reason : String)
  | deserialization (reason : String)
  | versionMismatch (found supported : UInt32)
  | invalidMagic (found : List UInt8)
  | truncated (length : Nat)
  | checksumMismatch
  deriving DecidableEq

/-- Why parameters or key material cannot be used. -/
inductive KeyError
  | invalidPartition (name reason : String)
  | keyGeneration (name reason : String)
  | unknownPartition (name : String)
  | ciphertextShape (name : String) (expected actual : Nat)
  | blob (cause : BlobError)
  deriving DecidableEq

/-- The text of a cause. -/
def BlobError.message : BlobError → String
  | .io reason => s!"I/O error: {reason}"
  | .serialization reason => s!"Serialization error: {reason}"
  | .deserialization reason => s!"Deserialization error: {reason}"
  | .versionMismatch found supported =>
    s!"Version mismatch: blob version {found}, newest supported {supported}"
  | .invalidMagic found =>
    let bytes := ", ".intercalate (found.map fun b => toString b.toNat)
    s!"Invalid magic number: expected CFKEY, got [{bytes}]"
  | .truncated length => s!"Truncated key blob: {length} bytes"
  | .checksumMismatch => "Checksum mismatch: key blob may be corrupted"

/-- The text of a cause. -/
def KeyError.message : KeyError → String
  | .invalidPartition name reason => s!"Invalid partition '{name}': {reason}"
  | .keyGeneration name reason => s!"Key generation failed for partition '{name}': {reason}"
  | .unknownPartition name => s!"Unknown partition: {name}"
  | .ciphertextShape name expected actual =>
    s!"Ciphertext shape mismatch for partition '{name}': expected {expected} words, got {actual}"
  | .blob cause => s!"Key blob error: {cause.message}"

end HomCircuit
