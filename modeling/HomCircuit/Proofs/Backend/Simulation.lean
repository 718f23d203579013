import HomCircuit.Backend.Simulation
import HomCircuit.Proofs.Primitive.Shape

/-!
# HomCircuit.Proofs.Backend.Simulation

Stand-ins of a valid partition: shadows stay below the plaintext modulus, nothing crashes, and the
only failure is that of a table that does not fit.

A shadow that came from outside need not be below the modulus. Sums and products of such shadows wrap
around, which does not matter for a modulus that divides the number of words, and all moduli do.

* `Simulation.settles_run` — one operation on stand-ins;
* `Simulation.exists_run` — the same on any stand-ins;
* `Simulation.Congruent`, `Simulation.run_congr` — an operation other than the identity reads residues by
  the modulus of its own partition.
-/

namespace HomCircuit.Simulation

section Reduce

variable {a b m : UInt64}

theorem reduce_eq (pos : m ≠ 0) : reduce a m = .done (a % m) := by simp [reduce, pos]

theorem mod_lt (pos : m ≠ 0) : a % m < m :=
  UInt64.mod_lt a (UInt64.pos_iff_ne_zero.mpr pos)

/-- A difference above a small modulus does not overflow. -/
theorem difference_eq (pos : m ≠ 0) (small : m ≤ 0x10000) :
    difference a b m = .done ((a % m + m - b % m) % m) := by
  have below := UInt64.lt_iff_toNat_lt.mp (mod_lt (a := a) pos)
  have bound := UInt64.le_iff_toNat_le.mp small
  have fits : (a % m).toNat + m.toNat < UInt64.size := by
    simp only [UInt64.size, UInt64.reduceToNat] at bound ⊢
    omega
  simp only [difference, reduce_eq pos, sum, if_pos fits, Bind.bind, Outcome.bind]

end Reduce

/-- A stand-in below a modulus, or the failure of a table that does not fit. -/
def Settled (n : Node) (q : Partition) : Outcome RunError Simulated → Prop
  | .done s => s.shadow < q.plaintextModulus
  | .failed err => ∃ table, n.op = .lookup table ∧ Primitive.tableFits table q = false ∧
      err = .nodeExecution n.id (PrimitiveError.lookupTable table.length q.plaintextModulus).message
  | .crashed _ => False

/-- An operation on stand-ins of its partition gives another one, or refuses a table. -/
theorem settles_run {n : Node} {inputs : List Simulated} {q source : Partition} (valid : q.Valid)
    (arity : inputs.length = n.op.arity)
    (below : (∀ id, n.op ≠ .changePartition id) → ∀ s ∈ inputs, s.shadow < q.plaintextModulus) :
    Settled n q (run n inputs q source) := by
  have pos := valid.plaintextModulus_ne_zero
  have small := valid.checks.2.2.1
  simp only [run, arity, ne_eq, not_true_eq_false, if_false]
  cases op : n.op with
  | sub =>
      simp only [difference_eq pos small]
      exact mod_lt pos
  | lookup table =>
      simp only [Primitive.checkTable]
      cases fits : Primitive.tableFits table q with
      | false => exact ⟨table, op, fits, rfl⟩
      | true =>
          simp only [if_true, reduce_eq pos]
          exact mod_lt pos
  | identity =>
      rw [op] at arity
      obtain ⟨a, rfl⟩ := List.length_eq_one_iff.mp arity
      exact below (by simp [op]) a (by simp)
  | _ =>
      simp only [reduce_eq pos]
      exact mod_lt pos

/-- A lookup with a table that does not fit is refused, whatever its inputs. -/
theorem run_lookup {n : Node} {table : List UInt64} {q : Partition} (op : n.op = .lookup table)
    (misfit : Primitive.tableFits table q = false) (inputs : List Simulated) (source : Partition) :
    ∃ err, run n inputs q source = .failed err := by
  unfold run
  dsimp only
  split
  · exact ⟨_, rfl⟩
  · simp only [op, Primitive.checkTable, misfit]
    exact ⟨_, rfl⟩

/-- An operation gives a stand-in unless its table does not fit. -/
theorem exists_run {n : Node} {inputs : List Simulated} {q source : Partition} (valid : q.Valid)
    (arity : inputs.length = n.op.arity)
    (fits : ∀ table, n.op = .lookup table → Primitive.tableFits table q = true) :
    ∃ s, run n inputs q source = .done s := by
  have pos := valid.plaintextModulus_ne_zero
  have small := valid.checks.2.2.1
  simp only [run, arity, ne_eq, not_true_eq_false, if_false]
  cases op : n.op with
  | sub =>
      simp only [difference_eq pos small]
      exact ⟨_, rfl⟩
  | lookup table =>
      simp only [Primitive.checkTable, fits table op, if_true, reduce_eq pos]
      exact ⟨_, rfl⟩
  | identity => exact ⟨_, rfl⟩
  | _ =>
      simp only [reduce_eq pos]
      exact ⟨_, rfl⟩

/-! ## residues -/

/-- Stand-ins of one variance whose shadows a modulus does not tell apart. -/
structure Congruent (m : UInt64) (s t : Simulated) : Prop where
  variance : s.variance = t.variance
  shadow : s.shadow % m = t.shadow % m

theorem mod_eq_mod_iff {a b m : UInt64} : a % m = b % m ↔ a.toNat ≡ b.toNat [MOD m.toNat] := by
  rw [← UInt64.toNat_inj, UInt64.toNat_mod, UInt64.toNat_mod]
  rfl

section Wrapping

variable {a a' b b' m : UInt64} (wraps : m.toNat ∣ 2 ^ 64)

include wraps

/-- A word that wrapped around has the same remainder by a divisor of the number of words. -/
theorem wrap_modEq (x : Nat) : x % 2 ^ 64 ≡ x [MOD m.toNat] :=
  (Nat.mod_modEq x (2 ^ 64)).of_dvd wraps

theorem add_mod_congr (left : a % m = a' % m) (right : b % m = b' % m) :
    (a + b) % m = (a' + b') % m := by
  rw [mod_eq_mod_iff] at left right ⊢
  rw [UInt64.toNat_add, UInt64.toNat_add]
  exact (wrap_modEq wraps _).trans ((left.add right).trans (wrap_modEq wraps _).symm)

theorem mul_mod_congr (left : a % m = a' % m) : a * b % m = a' * b % m := by
  rw [mod_eq_mod_iff] at left ⊢
  rw [UInt64.toNat_mul, UInt64.toNat_mul]
  exact (wrap_modEq wraps _).trans ((left.mul_right _).trans (wrap_modEq wraps _).symm)

end Wrapping

section Congruent

variable {m m' : UInt64} {s t : Simulated} {q : Partition}

/-- A divisor of a modulus tells no more apart. -/
theorem Congruent.of_dvd (h : Congruent m s t) (dvd : m'.toNat ∣ m.toNat) : Congruent m' s t :=
  ⟨h.variance, mod_eq_mod_iff.mpr ((mod_eq_mod_iff.mp h.shadow).of_dvd dvd)⟩

/-- A smaller modulus of a valid partition tells no more apart. -/
theorem Congruent.of_le {q' : Partition} (h : Congruent q.plaintextModulus s t) (valid : q.Valid)
    (valid' : q'.Valid) (le : q'.plaintextModulus ≤ q.plaintextModulus) :
    Congruent q'.plaintextModulus s t := by
  obtain ⟨j, -, eq⟩ := valid.exists_plaintextModulus_eq
  obtain ⟨k, -, eq'⟩ := valid'.exists_plaintextModulus_eq
  refine h.of_dvd ?_
  rw [UInt64.le_iff_toNat_le] at le
  rw [eq, eq'] at le ⊢
  exact pow_dvd_pow 2 ((Nat.pow_le_pow_iff_right (by decide)).mp le)

/-- Inputs beyond the end of both lists are one stand-in. -/
theorem congruent_getD {inputs inputs' : List Simulated}
    (alike : List.Forall₂ (Congruent m) inputs inputs') (k : Nat) :
    Congruent m (inputs.getD k default) (inputs'.getD k default) := by
  induction alike generalizing k with
  | nil => exact ⟨rfl, rfl⟩
  | cons first _ ih =>
      cases k with
      | zero => exact first
      | succ k => exact ih k

/-- A table that fits has one entry for messages with the same remainder. -/
theorem tableEntry_congr (valid : q.Valid) {table : List UInt64}
    (fits : Primitive.tableFits table q = true) {a b : UInt64}
    (same : a % q.plaintextModulus = b % q.plaintextModulus) :
    Primitive.tableEntry table a = Primitive.tableEntry table b := by
  have dvd : table.length ∣ q.plaintextModulus.toNat := by
    simp only [Primitive.tableFits, Bool.and_eq_true, Bool.or_eq_true, decide_eq_true_eq] at fits
    rcases fits.2 with whole | messages
    · rw [whole]
    · rw [messages, valid.plaintextModulus_eq]
      exact Nat.dvd_mul_right _ _
  have index : a.toNat % table.length = b.toNat % table.length :=
    (mod_eq_mod_iff.mp same).of_dvd dvd
  rw [Primitive.tableEntry, Primitive.tableEntry, index]

/-- An operation other than the identity does not tell stand-ins apart that are congruent by the modulus
of its own partition. -/
theorem run_congr {n : Node} {inputs inputs' : List Simulated} {source : Partition} (valid : q.Valid)
    (reduces : n.op ≠ .identity)
    (alike : List.Forall₂ (Congruent q.plaintextModulus) inputs inputs') :
    run n inputs q source = run n inputs' q source := by
  have pos := valid.plaintextModulus_ne_zero
  have wraps : q.plaintextModulus.toNat ∣ 2 ^ 64 := by
    obtain ⟨k, le, eq⟩ := valid.exists_plaintextModulus_eq
    rw [eq]
    exact pow_dvd_pow 2 (by omega)
  have a := congruent_getD alike 0
  have b := congruent_getD alike 1
  simp only [run, alike.length_eq, a.variance, b.variance]
  cases op : n.op with
  | add => simp only [reduce_eq pos, add_mod_congr wraps a.shadow b.shadow]
  | sub => simp only [difference, reduce_eq pos, a.shadow, b.shadow]
  | neg => simp only [a.shadow]
  | addPlain constant => simp only [reduce_eq pos, add_mod_congr wraps a.shadow rfl]
  | mulPlain constant => simp only [reduce_eq pos, mul_mod_congr wraps a.shadow]
  | lookup table =>
      cases fits : Primitive.tableFits table q with
      | false =>
          simp only [Primitive.checkTable, fits]
          rfl
      | true => simp only [tableEntry_congr valid fits a.shadow]
  | changePartition id => simp only [reduce_eq pos, a.shadow]
  | identity => exact absurd op reduces

end Congruent

end HomCircuit.Simulation
