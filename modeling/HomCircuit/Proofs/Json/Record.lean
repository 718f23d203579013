import Mathlib
import HomCircuit.Proofs.Decimal.Literal
import HomCircuit.Json.Record

/-!
# HomCircuit.Proofs.Json.Record

Records that are written field by field are read so.

```
fields? keys (record (written declared)) = some (the declared values)
```

* `written` — the members of an object, one for each declared field that is set;
* `fields?_written` — each declared field is found as it was set;
* `exactNat?_nat`, `items?_map_eq_some_iff`, `defaulted_map` — what stands in a field is
  read back.
-/

namespace HomCircuit.Json.Record

variable {α : Type} {declared : List (String × Option Json)} {key : String}

/-! ## fields -/

/-- The members of an object, one for each declared field that is set. -/
def written (declared : List (String × Option Json)) : List (String × Json) :=
  declared.flatMap fun (k, v) => v.toList.map (k, ·)

theorem written_cons (key : String) (v : Option Json) (declared : List (String × Option Json)) :
    written ((key, v) :: declared) = v.toList.map (key, ·) ++ written declared := rfl

theorem ne_of_mem_written (absent : key ∉ declared.map (·.1)) {f : String × Json}
    (mem : f ∈ written declared) : f.1 ≠ key := by
  rintro rfl
  obtain ⟨⟨k, v⟩, there, mem⟩ := List.mem_flatMap.mp mem
  obtain ⟨j, -, rfl⟩ := List.mem_map.mp mem
  exact absent (List.mem_map_of_mem there)

/-- A key that is declared once is found as it was set. -/
theorem filter_written (nodup : (declared.map (·.1)).Nodup) {v : Option Json}
    (mem : (key, v) ∈ declared) :
    (written declared).filter (·.1 == key) = v.toList.map (key, ·) := by
  induction declared with
  | nil => contradiction
  | cons d declared ih =>
    obtain ⟨key', v'⟩ := d
    obtain ⟨absent, nodup⟩ := List.nodup_cons.mp nodup
    rw [written_cons, List.filter_append]
    rcases List.mem_cons.mp mem with same | there
    · cases same
      have front : (v.toList.map (key, ·)).filter (·.1 == key) = v.toList.map (key, ·) := by
        cases v <;> simp
      have back : (written declared).filter (·.1 == key) = [] :=
        List.filter_eq_nil_iff.mpr fun f mem => by simpa using ne_of_mem_written absent mem
      rw [front, back, List.append_nil]
    · have apart : key' ≠ key := by
        rintro rfl
        exact absent (List.mem_map.mpr ⟨_, there, rfl⟩)
      have front : (v'.toList.map (key', ·)).filter (·.1 == key) = [] := by
        cases v' <;> simp [apart]
      rw [front, List.nil_append, ih nodup there]

theorem filter_record (fields : List (String × Json)) (key : String) :
    (fields.map fun (k, v) => ((some k, v) : Option String × Json)).filter (·.1 == some key) =
      (fields.filter (·.1 == key)).map fun (k, v) => (some k, v) := by
  rw [List.filter_map]
  rfl

theorem single?_written (nodup : (declared.map (·.1)).Nodup) {v : Option Json}
    (mem : (key, v) ∈ declared) :
    single? ((written declared).map fun (k, v) => (some k, v)) key = some v := by
  rw [single?, filter_record, filter_written nodup mem]
  cases v <;> rfl

/-- Each declared field is found as it was set. -/
theorem fields?_written (declared : List (String × Option Json))
    (nodup : (declared.map (·.1)).Nodup) :
    fields? (declared.map (·.1)) (.record (written declared)) = some (declared.map (·.2)) := by
  have whole : ((written declared).map fun (k, v) => ((some k, v) : Option String × Json)).all
      (·.1.isSome) = true := by simp
  have found : ∀ part ⊆ declared, (part.map (·.1)).mapM
      (single? ((written declared).map fun (k, v) => (some k, v))) = some (part.map (·.2)) := by
    intro part inside
    induction part with
    | nil => rfl
    | cons d part ih =>
      have first := single?_written nodup (show (d.1, d.2) ∈ declared from inside List.mem_cons_self)
      have others := ih fun d mem => inside (List.mem_cons_of_mem _ mem)
      simp [List.mapM_cons, first, others]
  simp only [fields?, record, whole, if_true]
  exact found declared (List.Subset.refl _)

/-! ## documents without a loss -/

theorem isProper_nat {n : Nat} (fits : n < UInt64.size) : (Json.nat n).isProper = true :=
  Decimal.Literal.isSome_toBinary64?_ofNat fits

theorem areProper_iff {items : List Json} :
    areProper items = true ↔ ∀ j ∈ items, j.isProper = true := by
  induction items with
  | nil => simp [areProper]
  | cons j items ih => rw [areProper, Bool.and_eq_true, ih, List.forall_mem_cons]

theorem itemsDepth_le {items : List Json} {depth : Nat} (h : ∀ j ∈ items, j.depth ≤ depth) :
    itemsDepth items ≤ depth := by
  induction items with
  | nil => exact Nat.zero_le depth
  | cons j items ih =>
    obtain ⟨first, others⟩ := List.forall_mem_cons.mp h
    exact Nat.max_le.mpr ⟨first, ih others⟩

/-! ## what stands in a field -/

theorem exactNat?_nat {bits n : Nat} (fits : n < 2 ^ bits) : exactNat? bits (.nat n) = some n := by
  simp [exactNat?, nat, Option.filter, Nat.shiftLeft_eq, fits]

/-- A list is read back exactly if its members are. -/
theorem items?_map_eq_some_iff {read : Json → Option α} {write : α → Json} (as : List α) :
    items? read (.array (as.map write)) = some as ↔ ∀ a ∈ as, read (write a) = some a := by
  have each : (as.map write).mapM read = some as ↔ ∀ a ∈ as, read (write a) = some a := by
    induction as with
    | nil => simp
    | cons a as ih =>
      rw [List.forall_mem_cons, ← ih]
      simp [List.mapM_cons, Option.bind_eq_some_iff]
  exact each

/-- A field that may be left out is read back, as no value is null. -/
theorem defaulted_map {read : Json → Option α} {write : α → Json} (v : Option α)
    (back : ∀ a, read (write a) = some a) (apart : ∀ a, write a ≠ .null) :
    defaulted read (v.map write) = some v := by
  cases v with
  | none => rfl
  | some a => simp [defaulted, back, apart]

end HomCircuit.Json.Record
