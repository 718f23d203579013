/-!
# HomCircuit.Text.Unsigned

Unsigned numbers as override texts write them: ASCII digits after an optional `+`, any number of
leading zeros, no blanks, and below a bound.

* `unsigned?` — the number below `2 ^ bits` that a text writes.
-/

namespace HomCircuit.Text

/-- The value of an ASCII digit. -/
def digit? (c : Char) : Option Nat :=
  if '0' ≤ c ∧ c ≤ '9' then some (c.toNat - '0'.toNat) else none

/-- The number that a run of digits continues from `acc`. -/
def digitsFrom (acc : Nat) : List Char → Option Nat
  | [] => some acc
  | c :: rest =>
    match digit? c with
    | some d => digitsFrom (acc * 10 + d) rest
    | none => none

/-- The number that one digit or more write. -/
def decimal? : List Char → Option Nat
  | [] => none
  | cs => digitsFrom 0 cs

/-- The number below `2 ^ bits` that a text writes. -/
def unsigned? (bits : Nat) (s : String) : Option Nat :=
  let body := match s.toList with
    | '+' :: rest => rest
    | cs => cs
  (decimal? body).filter (· < 1 <<< bits)

end HomCircuit.Text
