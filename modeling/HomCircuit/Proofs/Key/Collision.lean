import HomCircuit.Proofs.Key.Answers

/-!
# HomCircuit.Proofs.Key.Collision

Two valid partitions of one name whose fingerprints agree, though their parameters do not. The
fingerprint has 64 bits, and the noise parameters leave room enough to reach any of its values.

A cache that has the key set of the one answers requests for the other with it.

* `Collision.fingerprints` — two collisions with one partition;
* `KeyCache.getOrCreate_of_ready` — what stands under an identity is the answer, whatever partition
  it was made for.
-/

namespace HomCircuit

/-- A request is answered with what stands under its identity. -/
theorem KeyCache.getOrCreate_of_ready {c : KeyCache} {p : Partition} {seed : KeySeed}
    {shared : SharedKeys} {used : Nat} (valid : p.Valid)
    (found : c.slot? (KeyId.of p seed) = some (.ready shared used)) :
    (c.getOrCreate p seed).1 = .ok shared := by
  rw [getOrCreate_eq_of_ready (Partition.validate_eq_ok_iff.mpr valid) found]

namespace Collision

/-- A small partition: ciphertexts of five words, sixteen plaintexts. -/
def base : Partition := { name := "P", lweDim := 1, glweDim := 1, polySize := 4 }

/-- Eight plaintexts. -/
def coarse : Partition :=
  { base with
    messageModulus := 2, lweNoise := ⟨0x08150805031f0c11⟩, glweNoise := ⟨0x151cf5171f123b17⟩ }

/-- Ciphertexts of nine words. -/
def long : Partition :=
  { base with
    polySize := 8, lweNoise := ⟨0x29150b1917280808⟩, glweNoise := ⟨0x0303396c3e6e161b⟩ }

/-- A partition of another name. -/
def other : Partition := { base with name := "Q" }

theorem valid : base.Valid ∧ coarse.Valid ∧ long.Valid := by decide +kernel

theorem fingerprints :
    coarse.fingerprint = base.fingerprint ∧ long.fingerprint = base.fingerprint := by decide +kernel

end Collision

end HomCircuit
