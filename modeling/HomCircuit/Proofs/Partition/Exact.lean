import HomCircuit.Proofs.Key.Decoding
import HomCircuit.Proofs.Partition.Identity
import HomCircuit.Proofs.Primitive.Strict

/-!
# HomCircuit.Proofs.Partition.Exact

Which partitions are accepted, said in numbers that know no largest word and no rounding.

```
glweDim * polySize                 ≤ 2^20
messageModulus * carryModulus      ≤ 2^16
baseLog * level                    ≤ 64
0 < lweNoise < 1                   as rational numbers
```

The checks compare products that stop at the largest word, and numbers by their bit patterns. The
largest word lies above every bound, so a product that stopped is refused as the true one is; and
patterns are in the order of the numbers that they stand for.

* `Binary64.toRat`, `Binary64.toRat_lt_iff` — the number of a pattern, and the order of both;
* `Partition.WellFormed`, `Partition.valid_iff_wellFormed` — the conditions, and that they are
  what is checked;
* `Strict.ofKeyBytes_eq`, `Strict.trivialCiphertext_eq` — two more functions without a crash;
* `Partition.validate_exact` — the conditions, and the arithmetic that may rely on them.
-/

namespace HomCircuit

/-! ## numbers by their patterns -/

namespace Binary64

/-- The number of a pattern without sign, an infinity counted as the power of two that comes next.
-/
def size (n : Nat) : ℚ :=
  if n / 2 ^ 52 = 0 then (n % 2 ^ 52 : Nat) * 2 ^ (-1074 : ℤ)
  else (2 ^ 52 + n % 2 ^ 52 : Nat) * 2 ^ ((n / 2 ^ 52 : Nat) - 1075 : ℤ)

/-- The number that a finite pattern stands for. -/
def toRat (x : Binary64) : ℚ :=
  let size : ℚ := x.decompose.1 * 2 ^ x.decompose.2
  if x.isNegative then -size else size

/-- The next pattern is a larger number, also where the exponent changes. -/
theorem size_lt_succ (n : Nat) : size n < size (n + 1) := by
  have pos (q : ℤ) : (0 : ℚ) < 2 ^ q := by positivity
  rcases Nat.lt_or_ge (n % 2 ^ 52 + 1) (2 ^ 52) with inside | carry
  · have exponent : (n + 1) / 2 ^ 52 = n / 2 ^ 52 := by omega
    have fraction : (n + 1) % 2 ^ 52 = n % 2 ^ 52 + 1 := by omega
    simp only [size, exponent, fraction]
    split <;> refine mul_lt_mul_of_pos_right ?_ (pos _) <;> norm_cast <;> omega
  · have exponent : (n + 1) / 2 ^ 52 = n / 2 ^ 52 + 1 := by omega
    have fraction : (n + 1) % 2 ^ 52 = 0 := by omega
    have full : n % 2 ^ 52 = 2 ^ 52 - 1 := by omega
    simp only [size, exponent, fraction, full, Nat.add_one_ne_zero, if_false]
    split
    · next subnormal =>
        rw [subnormal]
        norm_num
    · have step : ((n / 2 ^ 52 + 1 : Nat) - 1075 : ℤ) = (n / 2 ^ 52 : Nat) - 1075 + 1 := by
        push_cast
        ring
      rw [step, zpow_add_one₀ two_ne_zero, ← mul_assoc, mul_right_comm]
      refine mul_lt_mul_of_pos_right ?_ (pos _)
      norm_num

theorem strictMono_size : StrictMono size := strictMono_nat_of_lt_succ size_lt_succ

theorem size_zero : size 0 = 0 := by simp [size]

theorem toRat_eq (x : Binary64) :
    x.toRat = if x.isNegative then -size x.magnitude else size x.magnitude := by
  have width : 1 <<< 52 = 2 ^ 52 := by decide
  have decomposed : (x.decompose.1 : ℚ) * 2 ^ x.decompose.2 = size x.magnitude := by
    unfold decompose size
    rw [width]
    dsimp only
    split <;> rfl
  rw [toRat, decomposed]

variable {x y : Binary64}

/-- Patterns are in the order of the numbers that they stand for. -/
theorem toRat_lt_iff : x.toRat < y.toRat ↔ x.rank < y.rank := by
  have lt (m n : Nat) : size m < size n ↔ m < n := strictMono_size.lt_iff_lt
  have nonneg (n : Nat) : 0 ≤ size n := by
    rw [← size_zero]
    exact strictMono_size.monotone n.zero_le
  have pos (n : Nat) : 0 < size n ↔ 0 < n := by rw [← lt, size_zero]
  rw [toRat_eq, toRat_eq, rank, rank]
  have hx := nonneg x.magnitude
  have hy := nonneg y.magnitude
  split <;> split
  · rw [neg_lt_neg_iff, lt]
    omega
  · have either : -size x.magnitude < size y.magnitude ↔ 0 < size x.magnitude ∨ 0 < size y.magnitude := by
      constructor
      · intro below
        by_contra none
        rw [not_or, not_lt, not_lt] at none
        linarith
      · rintro (some | some) <;> linarith
    rw [either, pos, pos]
    omega
  · constructor
    · intro below
      linarith
    · omega
  · rw [lt]
    omega

/-- A pattern stands for a number strictly between two others. -/
def Within (x : Binary64) (low high : ℚ) : Prop :=
  x.isFinite = true ∧ low < x.toRat ∧ x.toRat < high

/-- A pattern stands for a number of at most some size, or for negative infinity. -/
def AtMost (x : Binary64) (high : ℚ) : Prop :=
  x = negInfinity ∨ (x.isFinite = true ∧ x.toRat ≤ high)

theorem toRat_zero : zero.toRat = 0 := by
  rw [toRat_eq]
  simp [isNegative, magnitude, zero, size_zero]

theorem toRat_one : one.toRat = 1 := by
  have sign : one.isNegative = false := by decide
  have magnitude : one.magnitude = 1023 * 2 ^ 52 := by decide
  rw [toRat_eq, sign, magnitude]
  norm_num [size]

/-- The comparisons with zero and one hold of the numbers between them. -/
theorem within_iff : zero.lt x = true ∧ x.lt one = true ↔ x.Within 0 1 := by
  have edges : zero.magnitude ≤ infinityMagnitude ∧ one.magnitude ≤ infinityMagnitude := by decide
  have places : zero.rank = 0 ∧ one.rank < infinityMagnitude := by decide
  have place : x.rank = -x.magnitude ∨ x.rank = x.magnitude := by
    unfold rank
    split <;> simp
  rw [Within, ← toRat_zero, ← toRat_one, toRat_lt_iff, toRat_lt_iff]
  simp only [lt, isNaN, isFinite, Bool.and_eq_true, Bool.not_eq_true', decide_eq_true_eq,
    decide_eq_false_iff_not]
  omega

/-- The comparison with zero holds of the numbers up to it, and of negative infinity. -/
theorem atMost_iff : x.le zero = true ↔ x.AtMost 0 := by
  have edge : zero.magnitude ≤ infinityMagnitude ∧ zero.rank = 0 := by decide
  have order : x.toRat ≤ 0 ↔ x.rank ≤ 0 := by
    rw [← not_lt, ← not_lt, ← toRat_zero, toRat_lt_iff, edge.2]
  have infinite : x = negInfinity ↔ x.magnitude = infinityMagnitude ∧ x.rank ≤ 0 := by
    constructor
    · rintro rfl
      decide
    · have size : 1 <<< 63 = 9223372036854775808 := by decide
      have limit : infinityMagnitude = 9218868437227405312 := by decide
      have word := x.bits.toNat_lt
      simp only [← toNat_bits_inj, rank, isNegative, magnitude, size, limit, negInfinity,
        decide_eq_true_eq, UInt64.reduceToNat]
      split <;> omega
  rw [AtMost, order, infinite]
  simp only [le, isNaN, isFinite, Bool.and_eq_true, Bool.not_eq_true', decide_eq_true_eq,
    decide_eq_false_iff_not]
  omega

end Binary64

/-! ## what is accepted -/

/-- A product that stops at the largest word is below a smaller bound exactly if the true one is. -/
theorem clampedProduct_le_iff {a b : UInt64} {limit : Nat} (small : limit < UInt64.size - 1) :
    clampedProduct a b ≤ limit ↔ a.toNat * b.toNat ≤ limit := by
  unfold clampedProduct
  omega

theorem isPowerOfTwo_iff {w : UInt64} : isPowerOfTwo w = true ↔ ∃ k, w.toNat = 2 ^ k := by
  refine ⟨Partition.exists_eq_two_pow, ?_⟩
  rintro ⟨k, power⟩
  simp [isPowerOfTwo, power, Nat.log2_two_pow, Nat.shiftLeft_eq]

theorem isBlankText_eq_false_iff {s : String} :
    Text.isBlankText s = false ↔ ∃ c ∈ s.toList, Text.isBlank c = false := by
  simp [Text.isBlankText]

theorem word_ne_zero_iff {w : UInt64} : w ≠ 0 ↔ 0 < w.toNat := by
  rw [ne_eq, ← UInt64.toNat_inj, Nat.pos_iff_ne_zero]
  rfl

/-- A decomposition has digits, and all of them fit in a word. -/
structure Decomposition.WellFormed (d : Decomposition) : Prop where
  baseLog : 0 < d.baseLog.toNat
  level : 0 < d.level.toNat
  bits : d.baseLog.toNat * d.level.toNat ≤ 64

namespace Partition

/-- What the parameters of a partition have to be. Sums and products are those of numbers. -/
structure WellFormed (p : Partition) : Prop where
  name : ∃ c ∈ p.name.toList, Text.isBlank c = false
  lweDim : 0 < p.lweDim.toNat
  glweDim : 0 < p.glweDim.toNat
  polySize : 0 < p.polySize.toNat
  power : ∃ k, p.polySize.toNat = 2 ^ k
  plain : p.lweDim.toNat ≤ 2 ^ 20
  ring : p.glweDim.toNat * p.polySize.toNat ≤ 2 ^ 20
  lweNoise : p.lweNoise.Within 0 1
  glweNoise : p.glweNoise.Within 0 1
  bootstrap : p.bootstrap.WellFormed
  keySwitch : p.keySwitch.WellFormed
  message : ∃ k, p.messageModulus.toNat = 2 ^ k
  carry : ∃ k, p.carryModulus.toNat = 2 ^ k
  plaintexts : p.messageModulus.toNat * p.carryModulus.toNat ≤ 2 ^ 16
  noiseLevel : 0 < p.maxNoiseLevel.toNat
  failureRate : p.log2FailureRate.AtMost 0

theorem gadgetFault?_eq_none_iff {name : String} {d : Decomposition} :
    gadgetFault? name d = none ↔ d.WellFormed := by
  have positive (w : UInt32) : w ≠ 0 ↔ 0 < w.toNat := by
    rw [ne_eq, ← UInt32.toNat_inj, Nat.pos_iff_ne_zero]
    rfl
  have size : UInt32.size - 1 = 4294967295 := by decide
  simp only [gadgetFault?, Option.orElse_eq_orElse, Option.orElse_eq_or, Option.or_eq_none_iff,
    check_eq_none, Bool.and_eq_true, decide_eq_true_eq, positive, size]
  constructor
  · rintro ⟨⟨baseLog, level⟩, bits⟩
    exact ⟨baseLog, level, by omega⟩
  · rintro ⟨baseLog, level, bits⟩
    exact ⟨⟨baseLog, level⟩, by omega⟩

/-- The number of plaintexts is compared as the true product is. -/
theorem plaintextModulus_le_iff {p : Partition} :
    p.plaintextModulus ≤ 0x10000 ↔ p.messageModulus.toNat * p.carryModulus.toNat ≤ 2 ^ 16 := by
  have size : UInt64.size = 18446744073709551616 := by decide
  have word : clampedProduct p.messageModulus p.carryModulus < UInt64.size := by
    unfold clampedProduct
    omega
  rw [UInt64.le_iff_toNat_le, plaintextModulus, UInt64.toNat_ofNat_of_lt' word]
  exact clampedProduct_le_iff (by decide)

/-- The checks ask for what the parameters have to be, and for no more. -/
theorem valid_iff_wellFormed {p : Partition} : p.Valid ↔ p.WellFormed := by
  have limit : maxKeyDim = 2 ^ 20 := by decide
  have ring : p.bigDim ≤ 2 ^ 20 ↔ p.glweDim.toNat * p.polySize.toNat ≤ 2 ^ 20 :=
    clampedProduct_le_iff (by decide)
  have level : p.maxNoiseLevel ≠ 0 ↔ 0 < p.maxNoiseLevel.toNat := by
    rw [ne_eq, ← UInt32.toNat_inj, Nat.pos_iff_ne_zero]
    rfl
  unfold Valid fault?
  simp only [dimFault?, noiseFault?, modulusFault?, Option.orElse_eq_orElse, Option.orElse_eq_or,
    Option.or_eq_none_iff, check_eq_none, gadgetFault?_eq_none_iff, Bool.not_eq_true',
    Bool.and_eq_true, decide_eq_true_eq, Binary64.within_iff, Binary64.atMost_iff, isPowerOfTwo_iff,
    isBlankText_eq_false_iff, plaintextModulus_le_iff, word_ne_zero_iff, limit, ring, level]
  constructor
  · rintro ⟨name, lwe, glwe, poly, power, ⟨plain, ring⟩, lweNoise, glweNoise, pbs, ks, message,
      carry, plaintexts, level, rate⟩
    exact ⟨name, lwe, glwe, poly, power, plain, ring, lweNoise, glweNoise, pbs, ks, message, carry,
      plaintexts, level, rate⟩
  · intro h
    exact ⟨h.name, h.lweDim, h.glweDim, h.polySize, h.power, ⟨h.plain, h.ring⟩, h.lweNoise,
      h.glweNoise, h.bootstrap, h.keySwitch, h.message, h.carry, h.plaintexts, h.noiseLevel,
      h.failureRate⟩

end Partition

/-! ## arithmetic that relies on it -/

namespace Strict

/-- A sum, where that is a machine word. -/
def sum {ε : Type} (m n : Nat) : Outcome ε Nat :=
  if m + n < UInt64.size then .done (m + n) else .crashed (some "attempt to add with overflow")

/-- Keys from one byte a coefficient, the plain key cut off at its dimension. -/
def ofKeyBytes (p : Partition) (seed : KeySeed) (bytes : List UInt8) : Outcome KeyError KeySet := do
  .ofExcept p.validate
  let expected ← sum p.lweDim.toNat p.bigDim
  if bytes.length ≠ expected then
    .failed (.keyGeneration p.name
      s!"key material has {bytes.length} coefficients, partition needs {expected}")
  else
    match bytes.findIdx? (1 < ·) with
    | some i => .failed (.keyGeneration p.name s!"coefficient {i} is not binary")
    | none =>
      let keys ← cut bytes p.lweDim.toNat
      return { partition := p, seed, small := keys.1.map (· == 1), big := keys.2.map (· == 1) }

/-- A message in the last of as many zeros as a ciphertext has words. -/
def trivialCiphertext {ε : Type} (p : Partition) (message : UInt64) : Outcome ε Ciphertext := do
  let length ← ciphertextLength p
  let reduced ← remainder message (max p.plaintextModulus 1)
  let step ← delta p
  return Primitive.mapBody (fun _ => reduced * step) (List.replicate length 0)

variable {ε : Type} {p : Partition}

/-- Whatever the partition and the bytes are: a partition is refused before its dimensions are
added. -/
theorem ofKeyBytes_eq (p : Partition) (seed : KeySeed) (bytes : List UInt8) :
    ofKeyBytes p seed bytes = .ofExcept (KeySet.ofKeyBytes p seed bytes) := by
  unfold ofKeyBytes KeySet.ofKeyBytes
  cases checked : p.validate with
  | error e => rfl
  | ok u =>
      have valid := Partition.validate_eq_ok_iff.mp checked
      have fits : (sum p.lweDim.toNat p.bigDim : Outcome KeyError Nat) =
          .done (p.lweDim.toNat + p.bigDim) := by
        have plain := valid.lweDim_le
        have ring := valid.bigDim_le
        have room : maxKeyDim + maxKeyDim < UInt64.size := by decide
        exact if_pos (by omega)
      simp only [Outcome.ofExcept_ok, Outcome.done_bind, fits]
      split
      · rfl
      · next length =>
          cases bytes.findIdx? (1 < ·) with
          | some i => rfl
          | none =>
              have inside : p.lweDim.toNat ≤ bytes.length := by omega
              simp [cut, inside, List.map_take, List.map_drop]

theorem trivialCiphertext_eq (valid : p.Valid) (message : UInt64) :
    (trivialCiphertext p message : Outcome ε Ciphertext) =
      .done (HomCircuit.trivialCiphertext p message) := by
  have modulus : max p.plaintextModulus 1 ≠ 0 := by
    rw [valid.max_plaintextModulus]
    exact valid.plaintextModulus_ne_zero
  simp [trivialCiphertext, ciphertextLength_eq valid, remainder_of_ne_zero modulus, delta_eq valid,
    Primitive.mapBody, HomCircuit.trivialCiphertext, Partition.ciphertextLength,
    List.replicate_succ']

end Strict

namespace Partition

/-- Coefficients of the key that fresh ciphertexts are encrypted under, as a product of numbers. -/
def coefficients (p : Partition) : Nat :=
  match p.keyChoice with
  | .big => p.glweDim.toNat * p.polySize.toNat
  | .small => p.lweDim.toNat

theorem WellFormed.keyDim_eq {p : Partition} (h : p.WellFormed) : p.keyDim = p.coefficients := by
  have size : UInt64.size = 18446744073709551616 := by decide
  have ring := h.ring
  unfold keyDim coefficients bigDim clampedProduct
  cases p.keyChoice with
  | small => rfl
  | big =>
      dsimp only
      omega

/-- A message without mask has one zero for each coefficient, and the message as so many steps. -/
theorem Valid.exists_trivialCiphertext {p : Partition} (h : p.Valid) (message : UInt64) :
    ∃ body, trivialCiphertext p message = List.replicate p.coefficients 0 ++ [body] ∧
      body.toNat = message.toNat % p.plaintextModulus.toNat * p.delta.toNat := by
  refine ⟨_, ?_, h.toNat_scaled message⟩
  rw [trivialCiphertext, h.max_plaintextModulus, (valid_iff_wellFormed.mp h).keyDim_eq]

/-- A partition is accepted exactly if its parameters are what they have to be, however large they
are. The plaintexts of an accepted one fill the lower half of the torus, and its ciphertexts have a
word more than the key has coefficients. Nothing crashes: no divisor is zero and no cut is out of
range, and no length is too large, in the length of ciphertexts, in messages without mask, in
encoding and decoding under keys of the partition, and in reading keys. Products and quotients are
those of numbers without bound: no message that is scaled leaves the word, and a phase decodes to
the same whether its sum with half a step leaves the word or not. -/
theorem validate_exact (p : Partition) :
    (p.validate = .ok () ↔ p.WellFormed) ∧
    (p.validate = .ok () →
      p.plaintextModulus.toNat = p.messageModulus.toNat * p.carryModulus.toNat ∧
      p.delta.toNat * (p.messageModulus.toNat * p.carryModulus.toNat) = 2 ^ 63 ∧
      p.ciphertextLength = p.coefficients + 1 ∧
      (Strict.ciphertextLength p : Outcome KeyError Nat) = .done p.ciphertextLength ∧
      (∀ message,
        (Strict.trivialCiphertext p message : Outcome KeyError Ciphertext) =
          .done (trivialCiphertext p message) ∧
        ∃ body, trivialCiphertext p message = List.replicate p.coefficients 0 ++ [body] ∧
          body.toNat = message.toNat % p.plaintextModulus.toNat * p.delta.toNat) ∧
      ∀ k : KeySet, k.IsOf p →
        (∀ message,
          (Strict.encode k message : Outcome KeyError UInt64) = .done (k.encode message) ∧
          (k.encode message).toNat = message.toNat % p.plaintextModulus.toNat * p.delta.toNat) ∧
        ∀ phase,
          (Strict.decode k phase : Outcome KeyError UInt64) = .done (k.decode phase) ∧
          (k.decode phase).toNat =
            (phase.toNat + p.delta.toNat / 2) / p.delta.toNat % p.plaintextModulus.toNat) ∧
    ∀ seed bytes, Strict.ofKeyBytes p seed bytes = .ofExcept (KeySet.ofKeyBytes p seed bytes) := by
  refine ⟨validate_eq_ok_iff.trans valid_iff_wellFormed, fun accepted => ?_, Strict.ofKeyBytes_eq p⟩
  have valid := validate_eq_ok_iff.mp accepted
  have product := valid.plaintextModulus_eq
  have full : p.delta.toNat * (p.messageModulus.toNat * p.carryModulus.toNat) = 2 ^ 63 := by
    rw [← product]
    exact valid.delta_mul
  have length : p.ciphertextLength = p.coefficients + 1 := by
    rw [ciphertextLength, (valid_iff_wellFormed.mp valid).keyDim_eq]
  refine ⟨product, full, length, Strict.ciphertextLength_eq valid, fun message =>
    ⟨Strict.trivialCiphertext_eq valid message, valid.exists_trivialCiphertext message⟩,
    fun k own => ?_⟩
  have encodes := Strict.encode_eq (ε := KeyError) own valid
  have decodes := Strict.decode_eq (ε := KeyError) own valid
  obtain rfl := own.partition
  exact ⟨fun message => ⟨encodes message, KeySet.toNat_encode valid message⟩,
    fun phase => ⟨decodes phase, KeySet.toNat_decode valid phase⟩⟩

/-- All bounds at once. -/
def largest : Partition :=
  { name := "P", lweDim := 0x100000, glweDim := 0x400, polySize := 0x400,
    bootstrap := ⟨32, 2⟩, keySwitch := ⟨64, 1⟩, messageModulus := 0x8000, carryModulus := 2,
    log2FailureRate := .zero }

/-- A partition at all bounds is accepted. One is refused whose ring key has `2 ^ 66` coefficients,
although that product leaves nothing but zeros in a word. -/
theorem validate_exact_largest :
    largest.validate = .ok () ∧ largest.delta.toNat * (0x8000 * 2) = 2 ^ 63 ∧
      largest.ciphertextLength = 0x400 * 0x400 + 1 ∧
      { largest with glweDim := 0x200000000, polySize := 0x200000000 }.validate ≠ .ok () := by
  have accepted : largest.validate = .ok () := validate_eq_ok_iff.mpr (by decide +kernel)
  obtain ⟨-, full, length, -⟩ := (validate_exact largest).2.1 accepted
  refine ⟨accepted, full, length, fun wrong => ?_⟩
  have ring := ((validate_exact _).1.mp wrong).ring
  exact absurd ring (by decide)

end Partition

end HomCircuit
