import HomCircuit.Bytes

/-!
# HomCircuit.Hash

The two mixing functions that everything reproducible is derived from.

* `fnv1a` — the 64-bit FNV-1a hash of a byte list, one xor and one multiplication a byte; it
  fingerprints parameter sets, guards stored keys and derives encryption nonces;
* `splitMix` — one step of the SplitMix64 finaliser, which spreads a word over all its bits.
-/

namespace HomCircuit.Hash

/-! ## FNV-1a -/

/-- The hash of no bytes. -/
def fnvBasis : UInt64 := 0xcbf29ce484222325

/-- The multiplier of every step. -/
def fnvPrime : UInt64 := 0x100000001b3

/-- One byte is folded in by a xor and a multiplication. -/
def fnvStep (h : UInt64) (b : UInt8) : UInt64 := (h ^^^ b.toUInt64) * fnvPrime

/-- The hash continued from `h` over more bytes. -/
def fnvFrom (h : UInt64) (bytes : List UInt8) : UInt64 := bytes.foldl fnvStep h

/-- The 64-bit FNV-1a hash. -/
def fnv1a (bytes : List UInt8) : UInt64 := fnvFrom fnvBasis bytes

/-- The hash continued over the little-endian bytes of words. -/
def fnvWords (h : UInt64) (words : List UInt64) : UInt64 :=
  words.foldl (fun h w => fnvFrom h (UInt64.toBytes w)) h

/-- Hashing two pieces after one another hashes their concatenation. -/
theorem fnvFrom_append (h : UInt64) (a b : List UInt8) :
    fnvFrom h (a ++ b) = fnvFrom (fnvFrom h a) b :=
  List.foldl_append

/-- Hashing words is hashing their bytes in order. -/
theorem fnvWords_eq (h : UInt64) (words : List UInt64) :
    fnvWords h words = fnvFrom h (words.flatMap UInt64.toBytes) := by
  induction words generalizing h with
  | nil => rfl
  | cons w ws ih =>
    rw [List.flatMap_cons, fnvFrom_append, ← ih]
    rfl

/-! ## SplitMix64 -/

/-- One SplitMix64 step: advance by the golden-ratio increment, then mix. -/
def splitMix (state : UInt64) : UInt64 :=
  let z := state + 0x9e3779b97f4a7c15
  let z := (z ^^^ (z >>> 30)) * 0xbf58476d1ce4e5b9
  let z := (z ^^^ (z >>> 27)) * 0x94d049bb133111eb
  z ^^^ (z >>> 31)

end HomCircuit.Hash
