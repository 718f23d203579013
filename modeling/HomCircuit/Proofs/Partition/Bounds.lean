import Mathlib
import HomCircuit.Partition.Validation

/-!
# HomCircuit.Proofs.Partition.Bounds

What the parameters of a valid partition allow to count on.

```
plaintext modulus  =  message modulus * carry modulus  =  2^k,  k ≤ 16
delta              =  2^(63 - k)
```

No division by one of them is a division by zero, and the plaintexts fill the lower half of the
torus exactly.

* `Partition.Valid.plaintextModulus_eq`, `Partition.Valid.delta_mul` — the two equations;
* `Partition.Valid.toNat_scaled` — plaintexts are scaled onto the torus without a carry;
* `Partition.Valid.lweDim_le`, `Partition.Valid.bigDim_le` — bounds on key dimensions.
-/

namespace HomCircuit

namespace Partition

@[simp] theorem check_eq_none {ok : Bool} {reason : String} : check ok reason = none ↔ ok = true := by
  unfold check
  split <;> simp_all

/-- A power of two, as a number. -/
theorem exists_eq_two_pow {w : UInt64} (h : isPowerOfTwo w = true) : ∃ k, w.toNat = 2 ^ k := by
  refine ⟨w.toNat.log2, ?_⟩
  simpa [isPowerOfTwo, Nat.shiftLeft_eq] using h

namespace Valid

variable {p : Partition}

/-- The checks that the moduli and dimensions pass. -/
theorem checks (h : p.Valid) :
    isPowerOfTwo p.messageModulus = true ∧ isPowerOfTwo p.carryModulus = true ∧
      p.plaintextModulus ≤ 0x10000 ∧ p.lweDim.toNat ≤ maxKeyDim ∧ p.bigDim ≤ maxKeyDim := by
  unfold Valid fault? at h
  simp only [modulusFault?, Option.orElse_eq_orElse, Option.orElse_eq_or, Option.or_eq_none_iff,
    check_eq_none, Bool.and_eq_true, decide_eq_true_eq] at h
  obtain ⟨-, -, -, -, -, dims, -, -, -, -, message, carry, product, -⟩ := h
  exact ⟨message, carry, product, dims⟩

theorem lweDim_le (h : p.Valid) : p.lweDim.toNat ≤ maxKeyDim := h.checks.2.2.2.1

theorem bigDim_le (h : p.Valid) : p.bigDim ≤ maxKeyDim := h.checks.2.2.2.2

/-- The product of the moduli does not reach its bound. -/
theorem plaintextModulus_eq (h : p.Valid) :
    p.plaintextModulus.toNat = p.messageModulus.toNat * p.carryModulus.toNat := by
  have bound : p.plaintextModulus.toNat ≤ 0x10000 := UInt64.le_iff_toNat_le.mp h.checks.2.2.1
  have word : min (p.messageModulus.toNat * p.carryModulus.toNat) (UInt64.size - 1) < UInt64.size := by
    have : 0 < UInt64.size := by decide
    omega
  have clamped : p.plaintextModulus.toNat =
      min (p.messageModulus.toNat * p.carryModulus.toNat) (UInt64.size - 1) := by
    rw [plaintextModulus, clampedProduct, UInt64.toNat_ofNat_of_lt' word]
  have size : UInt64.size - 1 = 18446744073709551615 := by decide
  omega

theorem messageModulus_pos (h : p.Valid) : 0 < p.messageModulus.toNat := by
  obtain ⟨k, eq⟩ := exists_eq_two_pow h.checks.1
  rw [eq]
  exact Nat.two_pow_pos k

/-- The plaintext modulus is a power of two of at most seventeen bits. -/
theorem exists_plaintextModulus_eq (h : p.Valid) :
    ∃ k ≤ 16, p.plaintextModulus.toNat = 2 ^ k := by
  obtain ⟨j, message⟩ := exists_eq_two_pow h.checks.1
  obtain ⟨k, carry⟩ := exists_eq_two_pow h.checks.2.1
  have eq : p.plaintextModulus.toNat = 2 ^ (j + k) := by
    rw [h.plaintextModulus_eq, message, carry, pow_add]
  have bound : p.plaintextModulus.toNat ≤ 2 ^ 16 := UInt64.le_iff_toNat_le.mp h.checks.2.2.1
  rw [eq] at bound
  exact ⟨j + k, (Nat.pow_le_pow_iff_right (by decide)).mp bound, eq⟩

theorem plaintextModulus_pos (h : p.Valid) : 0 < p.plaintextModulus.toNat := by
  obtain ⟨k, -, eq⟩ := h.exists_plaintextModulus_eq
  rw [eq]
  exact Nat.two_pow_pos k

theorem plaintextModulus_ne_zero (h : p.Valid) : p.plaintextModulus ≠ 0 := fun zero => by
  have := h.plaintextModulus_pos
  rw [zero] at this
  contradiction

theorem max_plaintextModulus (h : p.Valid) : max p.plaintextModulus 1 = p.plaintextModulus := by
  change (if p.plaintextModulus ≤ 1 then 1 else p.plaintextModulus) = _
  split
  · rename_i small
    have le : p.plaintextModulus.toNat ≤ 1 := UInt64.le_iff_toNat_le.mp small
    exact UInt64.toNat_inj.mp (Nat.le_antisymm h.plaintextModulus_pos le)
  · rfl

/-- The distance of plaintexts as a quotient of numbers. -/
theorem delta_eq (h : p.Valid) : p.delta.toNat = 2 ^ 63 / p.plaintextModulus.toNat := by
  rw [delta, h.max_plaintextModulus, UInt64.toNat_div]
  rfl

/-- The plaintexts fill the lower half of the torus. -/
theorem delta_mul (h : p.Valid) : p.delta.toNat * p.plaintextModulus.toNat = 2 ^ 63 := by
  obtain ⟨k, le, eq⟩ := h.exists_plaintextModulus_eq
  rw [h.delta_eq, eq]
  exact Nat.div_mul_cancel (pow_dvd_pow 2 (by omega))

theorem delta_pos (h : p.Valid) : 0 < p.delta.toNat :=
  Nat.pos_of_mul_pos_right (h.delta_mul ▸ by decide : 0 < p.delta.toNat * p.plaintextModulus.toNat)

theorem delta_ne_zero (h : p.Valid) : p.delta ≠ 0 := fun zero => by
  have := h.delta_pos
  rw [zero] at this
  contradiction

/-- A reduced message times the distance of plaintexts is a word, less than half of all. -/
theorem toNat_scaled (h : p.Valid) (message : UInt64) :
    (message % p.plaintextModulus * p.delta).toNat =
      message.toNat % p.plaintextModulus.toNat * p.delta.toNat := by
  have below := Nat.mod_lt message.toNat h.plaintextModulus_pos
  have room : message.toNat % p.plaintextModulus.toNat * p.delta.toNat < 2 ^ 63 := by
    rw [← h.delta_mul, Nat.mul_comm]
    exact Nat.mul_lt_mul_of_pos_left below h.delta_pos
  rw [UInt64.toNat_mul, UInt64.toNat_mod, Nat.mod_eq_of_lt]
  omega

end Valid

end Partition

end HomCircuit
