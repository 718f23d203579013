import Mathlib

/-!
# HomCircuit.Proofs.Except

Taking computations that may fail apart: when the whole succeeds, so did each part.
-/

namespace Except

variable {ε ε' α β : Type}

theorem exists_of_bind {r : Except ε α} {f : α → Except ε β} {b : β} (h : (r >>= f) = .ok b) :
    ∃ a, r = .ok a ∧ f a = .ok b := by
  cases r with
  | error err => contradiction
  | ok a => exact ⟨a, rfl, h⟩

theorem exists_of_map {r : Except ε α} {f : α → β} {b : β} (h : r.map f = .ok b) :
    ∃ a, r = .ok a ∧ f a = b := by
  cases r with
  | error err => contradiction
  | ok a => exact ⟨a, rfl, ok.inj h⟩

theorem eq_ok_of_mapError {f : ε → ε'} {r : Except ε α} {a : α} (h : r.mapError f = .ok a) :
    r = .ok a := by
  cases r with
  | error err => contradiction
  | ok b => exact congrArg _ (ok.inj h)

theorem exists_of_mapError {f : ε → ε'} {r : Except ε α} {err : ε'}
    (h : r.mapError f = .error err) : ∃ cause, r = .error cause ∧ f cause = err := by
  cases r with
  | error cause => exact ⟨cause, rfl, error.inj h⟩
  | ok a => contradiction

theorem eq_ok_of_isOk [Inhabited α] {r : Except ε α} (h : r.isOk = true) :
    r = .ok (r.toOption.getD default) := by
  cases r with
  | ok a => rfl
  | error err => contradiction

theorem eq_ok_of_toOption {r : Except ε α} {a : α} (h : r.toOption = some a) : r = .ok a := by
  cases r with
  | ok b => exact congrArg _ (Option.some.inj h)
  | error err => contradiction

theorem toOption_eq_none {r : Except ε α} (failed : ∀ a, r ≠ .ok a) : r.toOption = none := by
  cases r with
  | ok a => exact absurd rfl (failed a)
  | error err => rfl

theorem toOption_bind (r : Except ε α) (f : α → Except ε β) :
    (r.bind f).toOption = r.toOption.bind fun a => (f a).toOption := by
  cases r <;> rfl

/-- Each result of a list of steps that all succeed is the result of one of them. -/
theorem exists_of_mem_mapM {f : α → Except ε β} {as : List α} {bs : List β}
    (h : as.mapM f = .ok bs) : ∀ b ∈ bs, ∃ a, f a = .ok b := by
  induction as generalizing bs with
  | nil =>
      obtain rfl := ok.inj h
      simp
  | cons a as ih =>
      rw [List.mapM_cons] at h
      obtain ⟨b, first, h⟩ := exists_of_bind h
      obtain ⟨bs', rest, h⟩ := exists_of_bind h
      obtain rfl := ok.inj h
      exact List.forall_mem_cons.mpr ⟨⟨a, first⟩, ih rest⟩

end Except
