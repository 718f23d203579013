import Mathlib
import HomCircuit.Key.Set

/-!
# HomCircuit.Proofs.Key.Shape

Key sets have the dimensions of their partition, and so have the ciphertexts that they make.

* `KeySet.IsOf` — a key set of a partition;
* `KeySet.isOf_ofSeed`, `KeySet.isOf_of_ofKeyBytes` — key sets that are generated or read are of the
  partition that they are made for;
* `KeySet.encrypt_eq` — the mask and the body of an encryption;
* `KeySet.IsOf.length_encrypt`, `KeySet.IsOf.decrypt` — lengths in and out of encryption.
-/

namespace HomCircuit.KeySet

/-- A key set has the parameters of a partition and keys of its dimensions. -/
structure IsOf (q : Partition) (k : KeySet) : Prop where
  partition : k.partition = q
  small : k.small.length = q.lweDim.toNat
  big : k.big.length = q.bigDim

theorem length_binaryKey (dim : Nat) (g : Random.Generator) : (binaryKey dim g).1.length = dim := by
  have bits (words : List UInt64) : (words.flatMap wordBits).length = 64 * words.length := by
    induction words with
    | nil => rfl
    | cons w rest ih =>
        rw [List.flatMap_cons, List.length_append, ih]
        simp only [wordBits, List.length_map, List.length_range, List.length_cons]
        omega
  simp only [binaryKey, List.length_take, bits, Random.Generator.length_take]
  omega

/-- Generated keys are keys of their partition. -/
theorem isOf_ofSeed (q : Partition) (seed : KeySeed) : (ofSeed q seed).IsOf q where
  partition := by simp only [ofSeed]
  small := by simp only [ofSeed, length_binaryKey]
  big := by simp only [ofSeed, length_binaryKey]

/-- Keys that are read are keys of their partition. -/
theorem isOf_of_ofKeyBytes {q : Partition} {seed : KeySeed} {bytes : List UInt8} {k : KeySet}
    (h : ofKeyBytes q seed bytes = .ok k) : k.IsOf q := by
  unfold ofKeyBytes at h
  split at h
  · contradiction
  · dsimp only at h
    split at h
    · contradiction
    · rename_i fits
      split at h
      · contradiction
      · obtain rfl := Except.ok.inj h
        have length := not_not.mp fits
        exact
          { partition := rfl
            small := by
              simp only [List.length_take, List.length_map]
              omega
            big := by
              simp only [List.length_drop, List.length_map]
              omega }

/-- Keys that are read have the seed that they are read with. -/
theorem seed_of_ofKeyBytes {q : Partition} {seed : KeySeed} {bytes : List UInt8} {k : KeySet}
    (h : ofKeyBytes q seed bytes = .ok k) : k.seed = seed := by
  unfold ofKeyBytes at h
  grind

/-- The parts of an encryption: its mask, and the body that its noise word is added to. -/
theorem encrypt_eq (k : KeySet) (message nonce : UInt64) :
    k.encrypt message nonce = (k.randomness nonce).1 ++
      [dot (k.randomness nonce).1 k.encryptionKey + k.encode message + (k.randomness nonce).2] := by
  unfold encrypt
  cases k.randomness nonce with
  | mk mask noise => rfl

namespace IsOf

variable {q : Partition} {k : KeySet}

theorem length_encryptionKey (h : k.IsOf q) : k.encryptionKey.length = q.keyDim := by
  unfold encryptionKey Partition.keyDim
  rw [h.partition]
  cases q.keyChoice with
  | big => exact h.big
  | small => exact h.small

/-- The mask of an encryption has a word for each coefficient. -/
theorem length_mask (k : KeySet) (nonce : UInt64) :
    (k.randomness nonce).1.length = k.encryptionKey.length := by
  unfold randomness
  generalize Random.Generator.derive _ _ _ _ = g
  dsimp only
  exact Random.Generator.length_take k.encryptionKey.length g

/-- Fresh ciphertexts have the length of their partition. -/
theorem length_encrypt (h : k.IsOf q) (message nonce : UInt64) :
    (k.encrypt message nonce).length = q.ciphertextLength := by
  rw [encrypt_eq, List.length_append, length_mask, h.length_encryptionKey, List.length_singleton,
    Partition.ciphertextLength]

/-- Ciphertexts of the length of their partition have a phase. -/
theorem phase (h : k.IsOf q) {ct : Ciphertext} (length : ct.length = q.ciphertextLength) :
    k.phase ct = .ok (ct.getLastD 0 - dot ct.dropLast k.encryptionKey) := by
  simp [KeySet.phase, h.partition, length]

/-- Ciphertexts of the length of their partition decrypt. -/
theorem decrypt (h : k.IsOf q) {ct : Ciphertext} (length : ct.length = q.ciphertextLength) :
    k.decrypt ct = .ok (k.decode (ct.getLastD 0 - dot ct.dropLast k.encryptionKey)) := by
  rw [KeySet.decrypt, h.phase length]
  rfl

end IsOf

end HomCircuit.KeySet
