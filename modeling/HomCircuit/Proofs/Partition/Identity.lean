import HomCircuit.Key.Set
import HomCircuit.Proofs.Partition.Bounds
import HomCircuit.Proofs.Partition.Registration

/-!
# HomCircuit.Proofs.Partition.Identity

When two partitions count as one. The registry compares parameters as numbers, and the fingerprint
hashes their bytes; the two disagree on the sign of a failure rate of zero, and on nothing else.

```
p.same q                                  p = q, or they differ in that sign
p.fingerprintBytes = q.fingerprintBytes   p = q
```

The sign is one bit of one byte, and a hash that is folded byte by byte never loses a difference of
one byte, so the fingerprints differ as well.

* `Partition.fingerprintBytes_inj` — the bytes tell all parameters;
* `Partition.Valid.same_iff` — what the comparison of numbers leaves open;
* `Registry.exists_get?_of_register` — what stands under the number that a registration answers;
* `Registry.register_agrees` — the exact condition under which a registration answers with the
  fingerprint and the keys of what was registered.
-/

namespace HomCircuit

/-! ## bytes of numbers -/

theorem UInt64.toBytes_inj {v w : UInt64} : UInt64.toBytes v = UInt64.toBytes w ↔ v = w := by
  refine ⟨fun same => ?_, congrArg _⟩
  have read := congrArg ofLittleEndian same
  have size : 1 <<< (8 * 8) = 18446744073709551616 := by decide
  have hv := v.toNat_lt
  have hw := w.toNat_lt
  simp only [UInt64.toBytes, ofLittleEndian_littleEndian, size] at read
  exact UInt64.toNat_inj.mp (by omega)

theorem UInt32.toBytes_inj {v w : UInt32} : UInt32.toBytes v = UInt32.toBytes w ↔ v = w := by
  refine ⟨fun same => ?_, congrArg _⟩
  have read := congrArg ofLittleEndian same
  have size : 1 <<< (8 * 4) = 4294967296 := by decide
  have hv := v.toNat_lt
  have hw := w.toNat_lt
  simp only [UInt32.toBytes, ofLittleEndian_littleEndian, size] at read
  exact UInt32.toNat_inj.mp (by omega)

/-- A word at the end can be told from what stands before it. -/
theorem append_word64_inj {front front' : List UInt8} {v w : UInt64} :
    front ++ UInt64.toBytes v = front' ++ UInt64.toBytes w ↔ front = front' ∧ v = w := by
  constructor
  · intro same
    obtain ⟨fronts, words⟩ := List.append_inj' same (by simp)
    exact ⟨fronts, UInt64.toBytes_inj.mp words⟩
  · rintro ⟨rfl, rfl⟩
    rfl

theorem append_word32_inj {front front' : List UInt8} {v w : UInt32} :
    front ++ UInt32.toBytes v = front' ++ UInt32.toBytes w ↔ front = front' ∧ v = w := by
  constructor
  · intro same
    obtain ⟨fronts, words⟩ := List.append_inj' same (by simp)
    exact ⟨fronts, UInt32.toBytes_inj.mp words⟩
  · rintro ⟨rfl, rfl⟩
    rfl

theorem utf8Bytes_inj {s t : String} : utf8Bytes s = utf8Bytes t ↔ s = t := by
  refine ⟨fun same => ?_, congrArg _⟩
  exact String.toByteArray_inj.mp (ByteArray.ext (Array.toList_inj.mp same))

theorem KeyChoice.byte_inj {a b : KeyChoice} : a.byte = b.byte ↔ a = b := by
  cases a <;> cases b <;> decide

/-! ## a hash that is folded byte by byte -/

namespace Hash

/-- The multiplier is odd, so multiplying by it can be taken back. -/
theorem mul_fnvPrime_inj {v w : UInt64} : v * fnvPrime = w * fnvPrime ↔ v = w := by
  refine ⟨fun same => ?_, congrArg (· * fnvPrime)⟩
  have inverse : fnvPrime * 0xce965057aff6957b = 1 := by decide
  have undone := congrArg (· * (0xce965057aff6957b : UInt64)) same
  simpa only [UInt64.mul_assoc, inverse, UInt64.mul_one] using undone

theorem fnvStep_inj {g h : UInt64} {b : UInt8} : fnvStep g b = fnvStep h b ↔ g = h := by
  rw [fnvStep, fnvStep, mul_fnvPrime_inj, UInt64.xor_left_inj]

/-- Equal bytes keep different hashes apart. -/
theorem fnvFrom_inj {g h : UInt64} (bytes : List UInt8) :
    fnvFrom g bytes = fnvFrom h bytes ↔ g = h := by
  induction bytes generalizing g h with
  | nil => rfl
  | cons b bytes ih => exact ih.trans fnvStep_inj

/-- Different bytes at one place give different hashes. -/
theorem fnv1a_ne_of_byte (front back : List UInt8) {a b : UInt8} (differ : a ≠ b) :
    fnv1a (front ++ a :: back) ≠ fnv1a (front ++ b :: back) := by
  intro same
  simp only [fnv1a, fnvFrom_append] at same
  have step : fnvStep (fnvFrom fnvBasis front) a = fnvStep (fnvFrom fnvBasis front) b :=
    (fnvFrom_inj back).mp same
  rw [fnvStep, fnvStep, mul_fnvPrime_inj, UInt64.xor_right_inj] at step
  exact differ (by simpa using congrArg UInt64.toUInt8 step)

end Hash

/-! ## numbers of equal value -/

namespace Binary64

variable {x y : Binary64}

theorem bits_inj : x.bits = y.bits ↔ x = y := by
  refine ⟨fun h => ?_, congrArg bits⟩
  cases x
  cases y
  exact congrArg mk h

theorem toNat_bits_inj : x.bits.toNat = y.bits.toNat ↔ x = y := by
  rw [UInt64.toNat_inj, bits_inj]

/-- Whether a number is zero, of either sign. -/
def isZero (x : Binary64) : Bool := x.magnitude = 0

/-- Whether two numbers are equal although their bits are not. -/
def isOtherZero (x y : Binary64) : Bool := x ≠ y && x.isZero && y.isZero

/-- Patterns of one place are equal, but for the zeros. -/
theorem rank_eq_iff : x.rank = y.rank ↔ x = y ∨ x.isOtherZero y = true := by
  have size : 1 <<< 63 = 9223372036854775808 := by decide
  have hx := x.bits.toNat_lt
  have hy := y.bits.toNat_lt
  simp only [rank, isOtherZero, isZero, isNegative, magnitude, size, ← toNat_bits_inj, ne_eq,
    Bool.and_eq_true, decide_eq_true_eq, decide_not, Bool.not_eq_true', decide_eq_false_iff_not]
  split <;> split <;> omega

/-- Only the sign bit tells the zeros apart. -/
theorem eq_of_isOtherZero (h : x.isOtherZero y = true) :
    x = ⟨0⟩ ∧ y = ⟨0x8000000000000000⟩ ∨ x = ⟨0x8000000000000000⟩ ∧ y = ⟨0⟩ := by
  have size : 1 <<< 63 = 9223372036854775808 := by decide
  have hx := x.bits.toNat_lt
  have hy := y.bits.toNat_lt
  simp only [isOtherZero, isZero, magnitude, size, ← toNat_bits_inj, ne_eq, Bool.and_eq_true,
    decide_eq_true_eq, decide_not, Bool.not_eq_true', decide_eq_false_iff_not] at h
  simp only [← toNat_bits_inj, UInt64.reduceToNat]
  omega

/-- The numeric comparison takes the zeros for one number, and tells all others apart. -/
theorem eq_iff (h : x.isNaN = false) : x.eq y = true ↔ x = y ∨ x.isOtherZero y = true := by
  rw [← rank_eq_iff]
  simp only [eq, h, Bool.not_false, Bool.true_and, Bool.and_eq_true, Bool.not_eq_true', beq_iff_eq,
    and_iff_right_iff_imp]
  intro same
  rcases rank_eq_iff.mp same with rfl | zeros
  · exact h
  · rcases eq_of_isOtherZero zeros with ⟨-, rfl⟩ | ⟨-, rfl⟩ <;> decide

theorem eq_iff_of_pos (h : zero.lt x = true) : x.eq y = true ↔ x = y := by
  simp only [lt, Bool.and_eq_true, Bool.not_eq_true', decide_eq_true_eq] at h
  rw [eq_iff h.1.2, or_iff_left_iff_imp]
  intro zeros
  rcases eq_of_isOtherZero zeros with ⟨rfl, -⟩ | ⟨rfl, -⟩
  · exact absurd h.2 (by decide)
  · exact absurd h.2 (by decide)

theorem eq_iff_of_le {z : Binary64} (h : x.le z = true) :
    x.eq y = true ↔ x = y ∨ x.isOtherZero y = true := by
  simp only [le, Bool.and_eq_true, Bool.not_eq_true'] at h
  exact eq_iff h.1.1

end Binary64

/-! ## partitions of equal value -/

namespace Partition

variable {p q : Partition}

/-- The bytes that are hashed tell all parameters. -/
theorem fingerprintBytes_inj : p.fingerprintBytes = q.fingerprintBytes ↔ p = q := by
  refine ⟨fun same => ?_, congrArg _⟩
  have choice (a b : List UInt8) (v w : UInt8) : a ++ [v] = b ++ [w] ↔ a = b ∧ v = w := by simp
  simp only [fingerprintBytes, choice, append_word64_inj, append_word32_inj, utf8Bytes_inj,
    KeyChoice.byte_inj, Binary64.bits_inj] at same
  rcases p with ⟨name, lwe, glwe, poly, x, y, ⟨base, level⟩, ⟨base', level'⟩, m, c, n, rate, k⟩
  rcases q with ⟨name, lwe, glwe, poly, x, y, ⟨base, level⟩, ⟨base', level'⟩, m, c, n, rate, k⟩
  simp_all only [and_true]

/-- Two partitions whose failure rates are the two zeros, and which agree in all else. -/
def DifferInSign (p q : Partition) : Prop :=
  p.log2FailureRate.isOtherZero q.log2FailureRate = true ∧
    { p with log2FailureRate := q.log2FailureRate } = q

instance (p q : Partition) : Decidable (p.DifferInSign q) :=
  inferInstanceAs (Decidable (_ ∧ _))

/-- What is hashed before the failure rate. -/
def bytesBeforeRate (p : Partition) : List UInt8 :=
  utf8Bytes p.name ++ [0]
    ++ UInt64.toBytes p.lweDim ++ UInt64.toBytes p.glweDim ++ UInt64.toBytes p.polySize
    ++ UInt64.toBytes p.lweNoise.bits ++ UInt64.toBytes p.glweNoise.bits

/-- What is hashed after it. -/
def bytesAfterRate (p : Partition) : List UInt8 :=
  UInt32.toBytes p.bootstrap.baseLog ++ UInt32.toBytes p.bootstrap.level
    ++ UInt32.toBytes p.keySwitch.baseLog ++ UInt32.toBytes p.keySwitch.level
    ++ UInt32.toBytes p.maxNoiseLevel
    ++ UInt64.toBytes p.messageModulus ++ UInt64.toBytes p.carryModulus
    ++ [p.keyChoice.byte]

theorem fingerprintBytes_eq (p : Partition) : p.fingerprintBytes =
    p.bytesBeforeRate ++ UInt64.toBytes p.log2FailureRate.bits ++ p.bytesAfterRate := by
  simp only [fingerprintBytes, bytesBeforeRate, bytesAfterRate, List.append_assoc]

/-- The fingerprints of partitions that differ in sign are different: one byte is. -/
theorem DifferInSign.fingerprint_ne (h : p.DifferInSign q) : p.fingerprint ≠ q.fingerprint := by
  obtain ⟨zeros, same⟩ := h
  have before : p.bytesBeforeRate = q.bytesBeforeRate := (congrArg bytesBeforeRate same :)
  have after : p.bytesAfterRate = q.bytesAfterRate := (congrArg bytesAfterRate same :)
  have plus : UInt64.toBytes 0 = List.replicate 7 0 ++ [0] := by decide
  have minus : UInt64.toBytes 0x8000000000000000 = List.replicate 7 0 ++ [0x80] := by decide
  have byte {a b : UInt8} (differ : a ≠ b) :=
    Hash.fnv1a_ne_of_byte (q.bytesBeforeRate ++ List.replicate 7 0) q.bytesAfterRate differ
  rw [fingerprint, fingerprint, fingerprintBytes_eq p, fingerprintBytes_eq q, before, after]
  rcases Binary64.eq_of_isOtherZero zeros with ⟨x, y⟩ | ⟨x, y⟩
  · rw [x, y, plus, minus]
    simpa using byte (by decide : (0 : UInt8) ≠ 0x80)
  · rw [x, y, plus, minus]
    simpa using byte (by decide : (0x80 : UInt8) ≠ 0)

/-- Deviations are positive numbers, and the failure rate is a number. -/
theorem Valid.real_parameters (h : p.Valid) :
    Binary64.zero.lt p.lweNoise = true ∧ Binary64.zero.lt p.glweNoise = true ∧
      p.log2FailureRate.le .zero = true := by
  unfold Valid fault? at h
  simp only [noiseFault?, Option.orElse_eq_orElse, Option.orElse_eq_or, Option.or_eq_none_iff,
    check_eq_none, Bool.and_eq_true] at h
  obtain ⟨-, -, -, -, -, -, ⟨lwe, -⟩, ⟨glwe, -⟩, -, -, -, -, -, -, rate⟩ := h
  exact ⟨lwe, glwe, rate⟩

/-- Numbers are compared by value, and all other parameters exactly. -/
theorem Valid.same_iff (h : p.Valid) : p.same q = true ↔ p = q ∨ p.DifferInSign q := by
  obtain ⟨lwe, glwe, rate⟩ := h.real_parameters
  simp only [same, Bool.and_eq_true, beq_iff_eq, Binary64.eq_iff_of_pos lwe,
    Binary64.eq_iff_of_pos glwe, Binary64.eq_iff_of_le rate, DifferInSign]
  constructor
  · rintro ⟨⟨⟨⟨⟨⟨⟨⟨⟨⟨⟨⟨name, lweDim⟩, glweDim⟩, polySize⟩, lweNoise⟩, glweNoise⟩, pbs⟩, ks⟩, message⟩,
      carry⟩, maxNoise⟩, rates⟩, keyChoice⟩
    have rest : { p with log2FailureRate := q.log2FailureRate } = q := by
      cases q
      simp_all only
    rcases rates with equal | zeros
    · left
      rw [← rest, ← equal]
    · exact .inr ⟨zeros, rest⟩
  · rintro (rfl | ⟨zeros, rest⟩)
    · simp
    · rw [← rest]
      simp [zeros]

/-- Comparison and fingerprint agree exactly where no sign of a zero is at stake. -/
theorem Valid.same_iff_bytes (h : p.Valid) :
    (p.same q = true ↔ p.fingerprintBytes = q.fingerprintBytes) ↔ ¬ p.DifferInSign q := by
  rw [h.same_iff, fingerprintBytes_inj]
  constructor
  · intro agree apart
    exact apart.fingerprint_ne (congrArg fingerprint (agree.mp (.inr apart)))
  · intro alike
    simp [alike]

end Partition

/-! ## registration -/

namespace Registry

variable {r r' : Registry} {p : Partition} {id : PartitionId}

/-- The registry after some partitions were offered, one after the other; what is refused leaves it
as it was. -/
def fill (r : Registry) (offers : List Partition) : Registry :=
  offers.foldl (fun r p => ((r.register p).map (·.2)).toOption.getD r) r

/-- A refusal leaves the registry as it was. -/
theorem Sane.enroll_eq (s : r.Sane) (p : Partition) :
    ((r.register p).map (·.2)).toOption.getD r = (r.enroll p).2 := by
  have enrolls := s.enrolls p
  unfold Registry.register
  generalize r.enroll p = enrolled at enrolls
  obtain ⟨answer, r'⟩ := enrolled
  cases enrolls <;> rfl

theorem Sane.fill (s : r.Sane) (offers : List Partition) : (r.fill offers).Sane := by
  induction offers generalizing r with
  | nil => exact s
  | cons p offers ih =>
      refine ih ?_
      change (((r.register p).map (·.2)).toOption.getD r).Sane
      rw [s.enroll_eq]
      exact s.enroll p

/-- Under the number that a registration answers stands a partition that compares equal. -/
theorem exists_get?_of_register (s : r.Sane) (registered : r.register p = .ok (id, r')) :
    ∃ known, r'.get? id = some known ∧ known.Valid ∧ known.same p = true := by
  have enrolls := s.enrolls p
  rw [register_eq_ok_iff.mp registered] at enrolls
  cases enrolls with
  | known _ there same => exact ⟨_, there, s.valid _ (mem_of_get? there), same⟩
  | new valid _ room =>
      exact ⟨p, (get?_add room r.next).trans (if_pos rfl), valid, valid.same_iff.mpr (.inl rfl)⟩

/-- Of valid partitions, the numeric comparison and the bytes that are hashed agree exactly unless
the two failure rates are the two zeros. In a registry that registrations have filled, what stands
under the number that is answered has the fingerprint of what was registered, and with it its keys,
exactly unless the two differ in that sign. -/
theorem register_agrees (offers : List Partition) (p q : Partition) (hp : p.Valid) :
    ((p.same q = true ↔ p.fingerprintBytes = q.fingerprintBytes) ↔ ¬ p.DifferInSign q) ∧
    ∀ id r', (empty.fill offers).register p = .ok (id, r') →
      ∃ known, r'.get? id = some known ∧
        (known.fingerprint = p.fingerprint ↔ ¬ known.DifferInSign p) ∧
        (¬ known.DifferInSign p →
          ∀ seed, KeySet.generate known seed = KeySet.generate p seed) := by
  refine ⟨hp.same_iff_bytes, fun id r' registered => ?_⟩
  obtain ⟨known, there, valid, same⟩ :=
    exists_get?_of_register (sane_empty.fill offers) registered
  have equal (alike : ¬ known.DifferInSign p) : known = p :=
    (valid.same_iff.mp same).resolve_right alike
  refine ⟨known, there, ⟨fun agree apart => ?_, fun alike => ?_⟩, fun alike seed => ?_⟩
  · exact apart.fingerprint_ne agree
  · rw [equal alike]
  · rw [equal alike]

end Registry

namespace SignedZero

/-- A small partition with a failure rate of zero. -/
def plus : Partition :=
  { name := "P", lweDim := 8, glweDim := 1, polySize := 8, log2FailureRate := ⟨0⟩ }

/-- The same, with the sign bit of the failure rate set. -/
def minus : Partition := { plus with log2FailureRate := ⟨0x8000000000000000⟩ }

/-- What stands under the number that a registration answers. -/
def registered? (r : Registry) (p : Partition) : Option Partition :=
  match r.register p with
  | .ok (id, r') => r'.get? id
  | .error _ => none

/-- Once the one is registered, the other is answered with it, and with other keys. -/
theorem keys_differ :
    plus.Valid ∧ minus.Valid ∧ minus.same plus = true ∧
      minus.fingerprintBytes ≠ plus.fingerprintBytes ∧
      registered? (Registry.empty.fill [plus]) minus = some plus ∧
      plus.fingerprint ≠ minus.fingerprint ∧
      (KeySet.ofSeed plus default).small ≠ (KeySet.ofSeed minus default).small := by
  decide +kernel

/-- Where no sign is at stake, what is answered has the same fingerprint and keys. -/
theorem register_agrees_plus :
    plus.Valid ∧ ¬ (minus.same plus = true ↔ minus.fingerprintBytes = plus.fingerprintBytes) ∧
      ∃ known, registered? (Registry.empty.fill [plus]) plus = some known ∧
        known.fingerprint = plus.fingerprint ∧
        ∀ seed, KeySet.generate known seed = KeySet.generate plus seed := by
  have run : plus.Valid ∧ minus.Valid ∧ minus.DifferInSign plus ∧ ¬ plus.DifferInSign plus ∧
      registered? (Registry.empty.fill [plus]) plus = some plus := by decide +kernel
  obtain ⟨valid, valid', apart, alike, answered⟩ := run
  refine ⟨valid, fun agree => ?_, plus, answered, ?_⟩
  · exact (Registry.register_agrees [plus] minus plus valid').1.mp agree apart
  · unfold registered? at answered
    split at answered
    · next id r' registered =>
        obtain ⟨known, there, agree, keys⟩ :=
          (Registry.register_agrees [plus] plus minus valid).2 id r' registered
        obtain rfl : known = plus := Option.some.inj (there.symm.trans answered)
        exact ⟨agree.mpr alike, keys alike⟩
    · contradiction

end SignedZero

end HomCircuit
