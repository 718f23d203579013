import Mathlib
import HomCircuit.Decimal.Notation

/-!
# HomCircuit.Proofs.Decimal.Literal

Which literals are number literals of a document, and what the two writers of literals make.

```
literal   '-'? digits ('.' digits)? ('e' sign digits)?     no zero in front but a single one
```

* `Literal.Sound` — a literal of that form;
* `Literal.sound_ofNat`, `sound_of_documentLiteral?` — whole numbers and real numbers are written so;
* `Literal.toNat?_ofNat`, `Literal.isSome_toBinary64?_ofNat` — a whole number has its value, as such and
  as a real number.
-/

namespace HomCircuit.Decimal

variable {n : Nat} {ds : List Nat}

/-- A run of decimal digits, one at least. -/
structure Digits (ds : List Nat) : Prop where
  ne_nil : ds ≠ []
  lt_ten : ∀ d ∈ ds, d < 10

theorem Digits.exists_cons (digits : Digits ds) : ∃ d tail, d < 10 ∧ ds = d :: tail := by
  obtain ⟨d, tail, rfl⟩ := List.exists_cons_of_ne_nil digits.ne_nil
  exact ⟨d, tail, digits.lt_ten d List.mem_cons_self, rfl⟩

/-- A literal of the form that documents have. -/
structure Literal.Sound (l : Literal) : Prop where
  whole : Digits l.whole
  leading : l.whole.head? = some 0 → l.whole.length = 1
  fraction : ∀ ds ∈ l.fraction, Digits ds
  exponent : ∀ e ∈ l.exponent, Digits e.2

/-! ## digits of a number -/

theorem digitsOf_of_lt (h : n < 10) : digitsOf n = [n] := by
  rw [digitsOf, Nat.toDigits_of_lt_base h, List.map_singleton]
  exact congrArg (fun d => [d]) (Nat.toNat_digitChar_sub_48_of_lt_ten h)

theorem digitsOf_of_le (h : 10 ≤ n) : digitsOf n = digitsOf (n / 10) ++ [n % 10] := by
  rw [digitsOf, Nat.toDigits_of_base_le (by decide) h, List.map_append, List.map_singleton]
  exact congrArg (fun d => digitsOf (n / 10) ++ [d])
    (Nat.toNat_digitChar_sub_48_of_lt_ten (Nat.mod_lt n (by decide)))

theorem digitsOf_ne_nil (n : Nat) : digitsOf n ≠ [] := by
  simp [digitsOf, Nat.toDigits_ne_nil]

/-- The digits of a number are its last one behind those of a tenth of it. -/
theorem digits_digitsOf (n : Nat) : Digits (digitsOf n) where
  ne_nil := digitsOf_ne_nil n
  lt_ten := by
    induction n using Nat.strongRecOn with
    | ind n ih =>
      intro d mem
      by_cases small : n < 10
      · rw [digitsOf_of_lt small, List.mem_singleton] at mem
        exact mem ▸ small
      · rw [digitsOf_of_le (Nat.not_lt.mp small), List.mem_append, List.mem_singleton] at mem
        rcases mem with front | rfl
        · exact ih (n / 10) (by omega) d front
        · exact Nat.mod_lt n (by decide)

/-- Only zero begins with a zero. -/
theorem head?_digitsOf (h : n ≠ 0) : (digitsOf n).head? ≠ some 0 := by
  induction n using Nat.strongRecOn with
  | ind n ih =>
    by_cases small : n < 10
    · rw [digitsOf_of_lt small]
      simpa using h
    · rw [digitsOf_of_le (Nat.not_lt.mp small), List.head?_append_of_ne_nil _ (digitsOf_ne_nil _)]
      exact ih (n / 10) (by omega) (by omega)

theorem valueFrom_digitsOf (n : Nat) : valueFrom 0 (digitsOf n) = n := by
  induction n using Nat.strongRecOn with
  | ind n ih =>
    by_cases small : n < 10
    · rw [digitsOf_of_lt small]
      simp [valueFrom]
    · rw [digitsOf_of_le (Nat.not_lt.mp small), valueFrom, List.foldl_append]
      change valueFrom 0 (digitsOf (n / 10)) * 10 + n % 10 = n
      rw [ih (n / 10) (by omega)]
      omega

/-! ## whole numbers -/

namespace Literal

theorem sound_ofNat (n : Nat) : (ofNat n).Sound where
  whole := digits_digitsOf n
  leading zero := by
    rcases Nat.eq_zero_or_pos n with rfl | pos
    · rfl
    · exact absurd zero (head?_digitsOf (Nat.ne_of_gt pos))
  fraction := nofun
  exponent := nofun

@[simp] theorem toNat?_ofNat (n : Nat) : (ofNat n).toNat? = some n :=
  congrArg some (valueFrom_digitsOf n)

theorem le_valueFrom (acc : Nat) (ds : List Nat) : acc ≤ valueFrom acc ds := by
  induction ds generalizing acc with
  | nil => exact Nat.le_refl acc
  | cons d ds ih =>
    have step : acc * 10 + d ≤ valueFrom (acc * 10 + d) ds := ih (acc * 10 + d)
    change acc ≤ valueFrom (acc * 10 + d) ds
    omega

/-- No digit is left over of a number that fits in 64 bits. -/
theorem gather_of_lt {acc : Nat} (fits : valueFrom acc ds < UInt64.size) :
    gather acc ds = (valueFrom acc ds, []) := by
  induction ds generalizing acc with
  | nil => rfl
  | cons d ds ih =>
    have front : acc * 10 + d < UInt64.size := Nat.lt_of_le_of_lt (le_valueFrom _ ds) fits
    rw [gather, if_pos front]
    exact ih fits

theorem isSome_toBinary64?_ofNat (fits : n < UInt64.size) : (ofNat n).toBinary64?.isSome = true := by
  have gathered : gather 0 (digitsOf n) = (n, []) := by
    rw [gather_of_lt (by rwa [valueFrom_digitsOf]), valueFrom_digitsOf]
  simp [toBinary64?, size?, ofNat, gathered, scale]

end Literal

/-! ## real numbers -/

/-- A decimal that is zero only as a single digit. -/
def Scientific.Proper (s : Scientific) : Prop := s.coefficient ≠ 0 ∨ s = ⟨0, 0⟩

/-- The interval of a positive number lies above zero. -/
theorem Interval.holds_zero {m : Nat} {q : Int} (pos : m ≠ 0) {den : Nat} (h : den ≠ 0) :
    (ofBinary m q).holds 0 den = false := by
  have low : 0 < (ofBinary m q).low := by
    have gap : (if m = 1 <<< 52 ∧ -1074 < q then 1 else 2) ≤ 2 := by split <;> decide
    refine Nat.mul_pos ?_ ?_
    · omega
    · simp [Nat.shiftLeft_eq]
  have scaled : 0 < (ofBinary m q).low * den := Nat.mul_pos low (Nat.pos_of_ne_zero h)
  unfold holds
  split
  · simp only [Nat.zero_mul, Bool.and_eq_false_iff, decide_eq_false_iff_not]
    exact .inl (Nat.not_le.mpr scaled)
  · simp

theorem Interval.coefficient_ne_zero {m : Nat} {q : Int} (pos : m ≠ 0) {tie : Tie} {place : Int}
    {s : Scientific} (found : (ofBinary m q).onGrid tie place = some s) : s.coefficient ≠ 0 := by
  have positive {d : Nat} (h : (ofBinary m q).holds (d * Nat.pow 10 place.toNat)
      (Nat.pow 10 (-place).toNat) = true) : d ≠ 0 := by
    rintro rfl
    have scale : Nat.pow 10 (-place).toNat ≠ 0 := Nat.ne_of_gt (Nat.pow_pos (by decide : 0 < 10))
    rw [Nat.zero_mul, holds_zero pos scale] at h
    contradiction
  unfold onGrid at found
  simp only at found
  split at found
  · contradiction
  · next below _ =>
    cases found
    exact positive below
  · cases found
    exact Nat.succ_ne_zero _
  · next below _ =>
    split at found
    · cases found
      exact positive below
    · split at found
      · cases found
        exact Nat.succ_ne_zero _
      · cases tie with
        | upward =>
          cases found
          exact Nat.succ_ne_zero _
        | even =>
          cases found
          dsimp only
          split
          · exact positive below
          · exact Nat.succ_ne_zero _

theorem Scientific.Proper.trim {s : Scientific} (p : s.Proper) (fuel : Nat) : (s.trim fuel).Proper := by
  induction fuel generalizing s with
  | zero => exact p
  | succ fuel ih =>
    rw [Scientific.trim]
    split
    · next zeros => exact ih (.inl (show s.coefficient / 10 ≠ 0 by omega))
    · exact p

theorem proper_shortest {m : Nat} (pos : m ≠ 0) (tie : Tie) (q : Int) : (shortest tie m q).Proper := by
  refine Scientific.Proper.trim ?_ 20
  generalize search : List.findSome? _ _ = found
  cases found with
  | none => exact .inr rfl
  | some s =>
    obtain ⟨place, -, there⟩ := List.exists_of_findSome?_eq_some search
    exact .inl (Interval.coefficient_ne_zero pos there)

/-- The digits before the point begin with a zero only where that is the only one. -/
theorem positional_whole {s : Scientific} (p : s.Proper) : Digits (positional s).1 ∧
    ((positional s).1.head? = some 0 → (positional s).1.length = 1) := by
  have digits := digits_digitsOf s.coefficient
  have some_digit := List.length_pos_of_ne_nil digits.ne_nil
  have leading : s.coefficient ≠ 0 → (digitsOf s.coefficient).head? ≠ some 0 := head?_digitsOf
  unfold positional
  dsimp only
  split
  · next up =>
    refine ⟨⟨by simp [digits.ne_nil], fun d mem => ?_⟩, fun zero => ?_⟩
    · rcases List.mem_append.mp mem with front | back
      · exact digits.lt_ten d front
      · rw [List.eq_of_mem_replicate back]
        decide
    · rw [List.head?_append_of_ne_nil _ digits.ne_nil] at zero
      rcases p with nonzero | rfl
      · exact absurd zero (leading nonzero)
      · rfl
  · next down =>
    simp only [List.splitAt_eq]
    refine ⟨⟨?_, fun d mem => ?_⟩, fun zero => ?_⟩
    · refine List.ne_nil_of_length_pos ?_
      simp only [zeros, List.length_take, List.length_append, List.length_replicate]
      omega
    · rcases List.mem_append.mp (List.mem_of_mem_take mem) with front | back
      · rw [List.eq_of_mem_replicate front]
        decide
      · exact digits.lt_ten d back
    · by_cases short : (digitsOf s.coefficient).length ≤ (-s.exponent).toNat
      · simp only [zeros, List.length_take, List.length_append, List.length_replicate]
        omega
      · have unpadded : (-s.exponent).toNat + 1 - (digitsOf s.coefficient).length = 0 := by omega
        rw [unpadded, zeros, List.replicate_zero, List.nil_append, List.head?_take] at zero
        rcases p with nonzero | rfl
        · split at zero
          · contradiction
          · exact absurd zero (leading nonzero)
        · exact absurd (Int.le_refl 0) down

theorem positional_fraction {s : Scientific} {d : Nat} (mem : d ∈ (positional s).2) : d < 10 := by
  have digits := digits_digitsOf s.coefficient
  unfold positional at mem
  dsimp only at mem
  split at mem
  · contradiction
  · rw [List.splitAt_eq] at mem
    rcases List.mem_append.mp (List.mem_of_mem_drop mem) with front | back
    · rw [List.eq_of_mem_replicate front]
      decide
    · exact digits.lt_ten d back

theorem sound_exponential (negative : Bool) (s : Scientific) : (exponential negative s).Sound where
  whole :=
    { ne_nil := by simp [exponential, digitsOf_ne_nil]
      lt_ten := fun d mem => (digits_digitsOf _).lt_ten d (List.mem_of_mem_take mem) }
  leading _ := by
    have some_digit := List.length_pos_of_ne_nil (digitsOf_ne_nil s.coefficient)
    simp only [exponential, List.length_take]
    omega
  fraction ds mem := by
    simp only [exponential, Option.mem_def, Option.ite_none_left_eq_some, Option.some.injEq] at mem
    obtain ⟨long, rfl⟩ := mem
    refine ⟨List.ne_nil_of_length_pos ?_, fun d mem => ?_⟩
    · rw [List.length_drop]
      omega
    · exact (digits_digitsOf _).lt_ten d (List.mem_of_mem_drop mem)
  exponent e mem := by
    cases mem
    exact digits_digitsOf _

/-- A real number is written as a literal of a document. -/
theorem sound_of_documentLiteral? {x : Binary64} {l : Literal} (h : documentLiteral? x = some l) :
    l.Sound := by
  unfold documentLiteral? at h
  split at h
  · contradiction
  · simp only at h
    generalize hs : (if x.decompose.1 = 0 then (⟨0, 0⟩ : Scientific) else _) = s at h
    have p : s.Proper := by
      rw [← hs]
      split
      · exact .inr rfl
      · next pos => exact proper_shortest pos _ _
    split at h
    · cases h
      obtain ⟨whole, leading⟩ := positional_whole p
      refine ⟨whole, leading, fun ds mem => ?_, nofun⟩
      cases mem
      split
      · exact ⟨nofun, by decide⟩
      · next some_digit =>
        refine ⟨fun none => some_digit ?_, fun d mem => positional_fraction mem⟩
        rw [none]
        rfl
    · cases h
      exact sound_exponential _ _

end HomCircuit.Decimal
