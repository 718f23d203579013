import HomCircuit.Primitive
import HomCircuit.Proofs.Key.Shape

/-!
# HomCircuit.Proofs.Key.Phase

What arithmetic on the words of ciphertexts does to their phases.

```
phase (zipWith f a b)    =  f (phase a) (phase b)       if f adds up
phase (mask ++ [b + w])  =  phase (mask ++ [b]) + w
```

A phase is a sum over the words, taken with the coefficients of the key, so whatever commutes with sums
commutes with it.  The key, its choice and the number of words do not matter.

* `AddsUp` — an operation on pairs of words that commutes with their sums;
* `dot_zipWith` — it commutes with what a mask contributes;
* `KeySet.IsOf.phase_zipWith`, `KeySet.IsOf.phase_map`, `KeySet.IsOf.phase_mapBody` — phases of results.
-/

namespace HomCircuit

/-- An operation on two words that gives on a sum of pairs the sum of what it gives on each. -/
def AddsUp (f : UInt64 → UInt64 → UInt64) : Prop := ∀ a b c d, f (a + c) (b + d) = f a b + f c d

namespace AddsUp

variable {f : UInt64 → UInt64 → UInt64}

theorem zero (h : AddsUp f) : f 0 0 = 0 := by
  have twice := h 0 0 0 0
  rw [add_zero] at twice
  exact left_eq_add.mp twice

theorem sub (h : AddsUp f) (a b c d : UInt64) : f (a - c) (b - d) = f a b - f c d := by
  have whole := h (a - c) (b - d) c d
  rw [sub_add_cancel, sub_add_cancel] at whole
  exact eq_sub_of_add_eq whole.symm

end AddsUp

/-! ## what a mask contributes -/

theorem dot_eq_sum (mask : List UInt64) (key : List Bool) :
    dot mask key = ((mask.zip key).map fun x => if x.2 then x.1 else 0).sum := by
  rw [dot, List.sum_eq_foldl, List.foldl_map]
  congr 1
  funext sum x
  obtain ⟨a, s⟩ := x
  cases s <;> simp

@[simp] theorem dot_nil (key : List Bool) : dot [] key = 0 := rfl

@[simp] theorem dot_cons (a : UInt64) (mask : List UInt64) (s : Bool) (key : List Bool) :
    dot (a :: mask) (s :: key) = (if s then a else 0) + dot mask key := by
  simp [dot_eq_sum]

/-- Masks that are combined word by word contribute the combination of what they contribute. -/
theorem dot_zipWith {f : UInt64 → UInt64 → UInt64} (adds : AddsUp f) {xs ys : List UInt64}
    (same : xs.length = ys.length) (key : List Bool) :
    dot (List.zipWith f xs ys) key = f (dot xs key) (dot ys key) := by
  induction xs generalizing ys key with
  | nil =>
      obtain rfl := List.length_eq_zero_iff.mp same.symm
      exact adds.zero.symm
  | cons x xs ih =>
      obtain ⟨y, ys, rfl⟩ := List.exists_cons_of_length_eq_add_one same.symm
      cases key with
      | nil => exact adds.zero.symm
      | cons s key =>
          rw [List.zipWith_cons_cons, dot_cons, dot_cons, dot_cons, adds, ih (Nat.succ.inj same)]
          cases s with
          | true => rfl
          | false => simp [adds.zero]

/-! ## phases -/

namespace KeySet

/-- A ciphertext decrypts to what its phase decodes to. -/
theorem decrypt_of_phase {k : KeySet} {ct : Ciphertext} {x : UInt64} (found : k.phase ct = .ok x) :
    k.decrypt ct = .ok (k.decode x) := by
  rw [decrypt, found, Except.map]

namespace IsOf

variable {q : Partition} {k : KeySet} {f : UInt64 → UInt64 → UInt64} {a b : Ciphertext}
  {x y : UInt64}

/-- A ciphertext has a phase exactly if it is a mask of the dimension of the key and a body. -/
theorem phase_eq_ok_iff (own : k.IsOf q) :
    k.phase a = .ok x ↔ ∃ mask body, a = mask ++ [body] ∧ mask.length = q.keyDim ∧
      x = body - dot mask k.encryptionKey := by
  constructor
  · intro found
    simp only [KeySet.phase, own.partition] at found
    split at found
    · contradiction
    · next whole =>
      have length : a.length = q.keyDim + 1 := not_not.mp whole
      have some_ : a ≠ [] := List.ne_nil_of_length_eq_add_one length
      have last : a.getLastD 0 = a.getLast some_ := by
        rw [List.getLastD_eq_getLast?, List.getLast?_eq_some_getLast some_, Option.getD_some]
      rw [last] at found
      refine ⟨a.dropLast, a.getLast some_, (List.dropLast_concat_getLast some_).symm, ?_, ?_⟩
      · rw [List.length_dropLast, length, Nat.add_sub_cancel]
      · exact (Except.ok.inj found).symm
  · rintro ⟨mask, body, rfl, length, rfl⟩
    have whole : (mask ++ [body]).length = q.ciphertextLength := by
      simp [length, Partition.ciphertextLength]
    simp [own.phase whole]

/-- Ciphertexts that are combined word by word have the combination of their phases. -/
theorem phase_zipWith (own : k.IsOf q) (adds : AddsUp f) (ha : k.phase a = .ok x)
    (hb : k.phase b = .ok y) : k.phase (List.zipWith f a b) = .ok (f x y) := by
  obtain ⟨mask, body, rfl, length, rfl⟩ := own.phase_eq_ok_iff.mp ha
  obtain ⟨mask', body', rfl, length', rfl⟩ := own.phase_eq_ok_iff.mp hb
  have same : mask.length = mask'.length := length.trans length'.symm
  apply own.phase_eq_ok_iff.mpr
  refine ⟨List.zipWith f mask mask', f body body', ?_, ?_, ?_⟩
  · rw [List.zipWith_append same, List.zipWith_cons_cons, List.zipWith_nil_left]
  · rw [List.length_zipWith, length, length', Nat.min_self]
  · rw [dot_zipWith adds same, adds.sub]

/-- A ciphertext whose words are changed all alike has its phase changed likewise. -/
theorem phase_map (own : k.IsOf q) {g : UInt64 → UInt64} (adds : ∀ a b, g (a + b) = g a + g b)
    (ha : k.phase a = .ok x) : k.phase (a.map g) = .ok (g x) := by
  have both : AddsUp fun a _ => g a := fun a _ c _ => adds a c
  have changed := own.phase_zipWith both ha ha
  rwa [List.zipWith_self] at changed

/-- What is added to the body is added to the phase. -/
theorem phase_mapBody (own : k.IsOf q) (w : UInt64) (ha : k.phase a = .ok x) :
    k.phase (Primitive.mapBody (· + w) a) = .ok (x + w) := by
  obtain ⟨mask, body, rfl, length, rfl⟩ := own.phase_eq_ok_iff.mp ha
  apply own.phase_eq_ok_iff.mpr
  refine ⟨mask, body + w, ?_, length, ?_⟩
  · simp [Primitive.mapBody]
  · rw [sub_add_eq_add_sub]

end IsOf

end KeySet

end HomCircuit
