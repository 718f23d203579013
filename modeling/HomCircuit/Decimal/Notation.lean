import HomCircuit.Decimal.Shortest
import HomCircuit.Decimal.Literal

/-!
# HomCircuit.Decimal.Notation

Two ways to write a binary64 number with its shortest digits.

* `plain` — always positional, no point for a whole number, ties between two shortest decimals
  going up: `1`, `-0`, `0.00000001`, `NaN`, `inf`;
* `documentLiteral?` — positional with at least one decimal from `1e-5` up to below `1e16`, otherwise
  with a signed exponent, ties going to the even digit: `1.0`, `0.00001`, `1e-6`, `1.5e+16`.
-/

namespace HomCircuit.Decimal

/-- `n` zeros. -/
def zeros (n : Nat) : List Nat := List.replicate n 0

/-- The digits of a decimal before and after the point. -/
def positional (s : Scientific) : List Nat × List Nat :=
  let ds := digitsOf s.coefficient
  if 0 ≤ s.exponent then (ds ++ zeros s.exponent.toNat, [])
  else
    let places := (-s.exponent).toNat
    let padded := zeros (places + 1 - ds.length) ++ ds
    padded.splitAt (padded.length - places)

/-- Exponent of the first digit of a decimal. -/
def Scientific.place (s : Scientific) : Int :=
  s.exponent + (Int.ofNat (digitCount s.coefficient) - 1)

/-- The literal with the point after the first digit and an exponent. -/
def exponential (negative : Bool) (s : Scientific) : Literal :=
  let ds := digitsOf s.coefficient
  { negative
    whole := ds.take 1
    fraction := if ds.length ≤ 1 then none else some (ds.drop 1)
    exponent := some (0 ≤ s.place, digitsOf s.place.natAbs) }

/-- The plain positional text of a number. -/
def plain (x : Binary64) : String :=
  let sign := if x.isNegative then "-" else ""
  if x.isNaN then "NaN"
  else if x.isInfinite then sign ++ "inf"
  else
    let (m, q) := x.decompose
    let s := if m = 0 then ⟨0, 0⟩ else shortest .upward m q
    let (whole, fraction) := positional s
    let l : Literal :=
      { negative := x.isNegative, whole, fraction := if fraction.isEmpty then none else some fraction }
    String.ofList l.text

/-- How a document writes a number; what is no real number has no literal. -/
def documentLiteral? (x : Binary64) : Option Literal :=
  if !x.isFinite then none
  else
    let (m, q) := x.decompose
    let s := if m = 0 then ⟨0, 0⟩ else shortest .even m q
    if -5 ≤ s.place ∧ s.place < 16 then
      let (whole, fraction) := positional s
      some { negative := x.isNegative, whole
             fraction := some (if fraction.isEmpty then [0] else fraction) }
    else some (exponential x.isNegative s)

end HomCircuit.Decimal
