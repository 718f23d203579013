import HomCircuit.Proofs.Key.Shape
import HomCircuit.Proofs.Partition.Bounds

/-!
# HomCircuit.Proofs.Key.Decoding

What a phase decodes to.

```
phase          =  message * delta + error                   (modulo 2^64)
decode phase   =  message + (error + delta / 2) mod 2^63 / delta      (modulo the plaintext modulus)
```

The plaintexts fill the lower half of the torus and the upper half repeats it, so errors count modulo
`2^63` only.  Half a step is added before the division rounds down, so an error moves the message by
its distance in whole steps, rounded: not at all exactly as long as `(error + delta / 2) mod 2^63 < delta`.

* `KeySet.toNat_decode` — a phase decodes as a number without bound would;
* `KeySet.decode_encode_add` — what an error makes of a message;
* `KeySet.decode_encode_add_iff` — when the message comes back;
* `KeySet.Near`, `KeySet.decode_of_near` — a phase decodes to a message with room to spare.
-/

namespace HomCircuit.KeySet

/-- A phase is less than half a step away from where a message is encoded, up to the top bit. -/
def Near (k : KeySet) (message phase : UInt64) : Prop :=
  (phase - k.encode message + k.partition.delta / 2) % 0x8000000000000000 < k.partition.delta

variable {k : KeySet}

/-- The number of whole steps in a sum that counts modulo `half`, if so many steps as the modulus says
fill it. -/
theorem div_mod_of_full {delta modulus half : Nat} (full : delta * modulus = half) (s y x : Nat)
    (same : x % half = (s * delta + y) % half) (pos : 0 < delta) :
    x / delta % modulus = (s + y / delta) % modulus := by
  calc x / delta % modulus
      = x % half / delta := by rw [← full, Nat.mod_mul_right_div_self]
    _ = (s * delta + y) % half / delta := by rw [same]
    _ = (s * delta + y) / delta % modulus := by rw [← full, Nat.mod_mul_right_div_self]
    _ = (s + y / delta) % modulus := by rw [Nat.mul_comm s, Nat.mul_add_div pos]

/-- A message is encoded as so many steps. -/
theorem toNat_encode (valid : k.partition.Valid) (message : UInt64) :
    (k.encode message).toNat =
      message.toNat % k.partition.plaintextModulus.toNat * k.partition.delta.toNat :=
  valid.toNat_scaled message

/-- The sum with half a step may carry out of the word, and decodes as if it had not. -/
theorem toNat_decode (valid : k.partition.Valid) (phase : UInt64) :
    (k.decode phase).toNat = (phase.toNat + k.partition.delta.toNat / 2) / k.partition.delta.toNat %
      k.partition.plaintextModulus.toNat := by
  have steps := div_mod_of_full valid.delta_mul 0 (phase.toNat + k.partition.delta.toNat / 2)
    ((phase.toNat + k.partition.delta.toNat / 2) % 2 ^ 64) (by omega) valid.delta_pos
  rw [Nat.zero_add] at steps
  rw [decode, UInt64.toNat_mod, UInt64.toNat_div, UInt64.toNat_add, UInt64.toNat_div, ← steps]
  rfl

/-- An error moves a message by its distance in steps, rounded. -/
theorem decode_encode_add (valid : k.partition.Valid) (message error : UInt64) :
    (k.decode (k.encode message + error)).toNat =
      (message.toNat % k.partition.plaintextModulus.toNat +
        ((error + k.partition.delta / 2) % 0x8000000000000000 / k.partition.delta).toNat) %
        k.partition.plaintextModulus.toNat := by
  have full := valid.delta_mul
  have encoded := toNat_encode valid message
  rw [decode, UInt64.toNat_mod, UInt64.toNat_div, UInt64.toNat_div]
  apply div_mod_of_full full _ _ _ _ valid.delta_pos
  rw [← encoded]
  simp only [UInt64.toNat_add, UInt64.toNat_mod, UInt64.toNat_div, UInt64.reduceToNat]
  omega

/-- An addend below the modulus that changes nothing is zero. -/
theorem add_mod_eq_left_iff {s n modulus : Nat} (hs : s < modulus) (hn : n < modulus) :
    (s + n) % modulus = s ↔ n = 0 := by
  constructor
  · intro same
    cases Nat.lt_or_ge (s + n) modulus with
    | inl inside =>
        rw [Nat.mod_eq_of_lt inside] at same
        omega
    | inr around =>
        rw [Nat.mod_eq_sub_mod around, Nat.mod_eq_of_lt (by omega)] at same
        omega
  · intro zero
    rw [zero, Nat.add_zero, Nat.mod_eq_of_lt hs]

/-- A message comes back exactly if the error is less than half a step. -/
theorem decode_encode_add_iff (valid : k.partition.Valid) (message error : UInt64) :
    k.decode (k.encode message + error) = message % k.partition.plaintextModulus ↔
      (error + k.partition.delta / 2) % 0x8000000000000000 < k.partition.delta := by
  have full := valid.delta_mul
  have below := Nat.mod_lt message.toNat valid.plaintextModulus_pos
  have steps : ((error + k.partition.delta / 2) % 0x8000000000000000 / k.partition.delta).toNat <
      k.partition.plaintextModulus.toNat := by
    rw [UInt64.toNat_div, UInt64.toNat_mod]
    apply Nat.div_lt_of_lt_mul
    rw [full]
    exact Nat.mod_lt _ (by decide)
  rw [← UInt64.toNat_inj, decode_encode_add valid, UInt64.toNat_mod,
    add_mod_eq_left_iff below steps, UInt64.toNat_div, Nat.div_eq_zero_iff_lt valid.delta_pos,
    UInt64.lt_iff_toNat_lt]

/-- A phase near a message decodes to it. -/
theorem decode_of_near (valid : k.partition.Valid) {message phase : UInt64}
    (below : message < k.partition.plaintextModulus) (near : k.Near message phase) :
    k.decode phase = message := by
  have back := (decode_encode_add_iff valid message (phase - k.encode message)).mpr near
  have reduced : message % k.partition.plaintextModulus = message := by
    apply UInt64.toNat_inj.mp
    rw [UInt64.toNat_mod, Nat.mod_eq_of_lt (UInt64.lt_iff_toNat_lt.mp below)]
  rwa [add_sub_cancel, reduced] at back

end HomCircuit.KeySet
