import HomCircuit.Proofs.Key.Blob
import HomCircuit.Proofs.Key.Decoding
import HomCircuit.Proofs.Key.Phase

/-!
# HomCircuit.Proofs.Key.Decryption

When a ciphertext decrypts to the message that it was made of.

```
body      =  ⟨mask, key⟩ + encode message + error
phase     =  encode message + error
message   ↔  (error + delta / 2) mod 2^63 < delta
```

The mask cancels whatever it is, so that nothing but the error decides.  It is the noise word for a
fresh encryption.

* `KeySet.decrypt_append` — a body over a mask of the right length always decrypts;
* `KeySet.decrypts_iff` — to the message exactly if the error is less than half a step.
-/

namespace HomCircuit.KeySet

variable {p : Partition} {seed : KeySeed} {k : KeySet} {mask : List UInt64}

/-- A body over a mask with one word a coefficient decrypts. -/
theorem decrypt_append (own : k.IsOf p) (length : mask.length = p.keyDim) (body : UInt64) :
    k.decrypt (mask ++ [body]) = .ok (k.decode (body - dot mask k.encryptionKey)) :=
  decrypt_of_phase (own.phase_eq_ok_iff.mpr ⟨mask, body, rfl, length, rfl⟩)

/-- The mask of a body cancels, and the message with its error is left. -/
theorem decrypt_body (own : k.IsOf p) (length : mask.length = p.keyDim) (message error : UInt64) :
    k.decrypt (mask ++ [dot mask k.encryptionKey + k.encode message + error]) =
      .ok (k.decode (k.encode message + error)) := by
  rw [decrypt_append own length, add_assoc, add_sub_cancel_left]

/-- Every key set decrypts its own encryptions, and every body over a mask of their length.  What is found
is the message, reduced modulo the plaintext modulus, exactly if the error of the body is less than half a
step away from zero, up to the top bit; for an encryption, this error is its noise word. -/
theorem decrypts_iff (built : Built p seed k) (message : UInt64) :
    (∀ nonce, ∃ found, k.decrypt (k.encrypt message nonce) = .ok found ∧
      (found = message % p.plaintextModulus ↔
        ((k.randomness nonce).2 + p.delta / 2) % 0x8000000000000000 < p.delta)) ∧
    ∀ mask body error, mask.length = p.keyDim →
      body = dot mask k.encryptionKey + k.encode message + error →
      ∃ found, k.decrypt (mask ++ [body]) = .ok found ∧
        (found = message % p.plaintextModulus ↔
          (error + p.delta / 2) % 0x8000000000000000 < p.delta) := by
  obtain ⟨valid, own⟩ := built.isOf
  have decodes (error : UInt64) : k.decode (k.encode message + error) = message % p.plaintextModulus ↔
      (error + p.delta / 2) % 0x8000000000000000 < p.delta := by
    have valid' : k.partition.Valid := own.partition.symm ▸ valid
    have back := decode_encode_add_iff valid' message error
    rwa [own.partition] at back
  constructor
  · intro nonce
    have length : (k.randomness nonce).1.length = p.keyDim := by
      rw [IsOf.length_mask, own.length_encryptionKey]
    rw [encrypt_eq, decrypt_body own length]
    exact ⟨_, rfl, decodes _⟩
  · intro mask body error length same
    rw [same, decrypt_body own length]
    exact ⟨_, rfl, decodes error⟩

/-- Sixteen plaintexts: an error of half a step is just too much, and one less is not. -/
theorem decrypts_iff_base :
    let k := ofSeed Collision.base default
    let body := dot [1, 2, 3, 4] k.encryptionKey + k.encode 5
    Built Collision.base default k ∧
      (∃ found, k.decrypt ([1, 2, 3, 4] ++ [body + 0x0400000000000000]) = .ok found ∧ found ≠ 5) ∧
      k.decrypt ([1, 2, 3, 4] ++ [body + 0x03ffffffffffffff]) = .ok 5 := by
  intro k body
  have built := built_ofSeed Collision.valid.1 default
  have moduli : Collision.base.plaintextModulus = 16 ∧ Collision.base.delta = 0x0800000000000000 := by
    decide
  obtain ⟨modulus, delta⟩ := moduli
  have decrypts := (decrypts_iff built 5).2 [1, 2, 3, 4]
  rw [modulus, delta] at decrypts
  obtain ⟨far, found, differs⟩ := decrypts _ 0x0400000000000000 rfl rfl
  obtain ⟨near, found', same⟩ := decrypts _ 0x03ffffffffffffff rfl rfl
  have message : near = 5 := same.mpr (by decide)
  exact ⟨built, ⟨far, found, fun equal => absurd (differs.mp equal) (by decide)⟩, message ▸ found'⟩

end HomCircuit.KeySet
