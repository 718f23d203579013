import HomCircuit.Binary64

/-!
# HomCircuit.Decimal.Shortest

The fewest decimal digits that read back as a given binary64 number.

A finite number `m · 2^q` is the one nearest to every real between the midpoints to its two
neighbours, the midpoints included iff `m` is even. For one digit, two digits, and so on, the two
grid points beside the number are tried; the first grid with a point in that interval wins, of two
points the nearer, and a `Tie` says which when both are as near.
-/

namespace HomCircuit.Decimal

/-- Which of two equally near points is taken. -/
inductive Tie
  | upward
  | even
  deriving DecidableEq

/-- The number `coefficient · 10^exponent`. -/
structure Scientific where
  coefficient : Nat
  exponent : Int
  deriving DecidableEq

/-- Number of decimal digits of a positive number, 1 for zero. -/
def digitCount (n : Nat) : Nat := (Nat.toDigits 10 n).length

/-- Place of the first digit of `num / den`: the largest `e` with `10^e ≤ num / den`. -/
def leadingPlace (num den : Nat) : Int :=
  if den ≤ num then (digitCount (num / den) : Int) - 1
  else -(digitCount ((den + num - 1) / num - 1) : Int)

/-- The reals that read back as one number, scaled to a common denominator: `low ≤ value ≤ high`
over `den`, with the ends included or not. -/
structure Interval where
  low : Nat
  value : Nat
  high : Nat
  den : Nat
  closed : Bool

/-- The interval of a positive `m · 2^q`; below a power of two the gap is half as wide. -/
def Interval.ofBinary (m : Nat) (q : Int) : Interval :=
  let scale := 1 <<< (q - 2).toNat
  let gap := if m = 1 <<< 52 ∧ -1074 < q then 1 else 2
  { low := (4 * m - gap) * scale
    value := 4 * m * scale
    high := (4 * m + 2) * scale
    den := 1 <<< (2 - q).toNat
    closed := m % 2 = 0 }

/-- Whether `num / den'` over the interval's own denominator lies inside. -/
def Interval.holds (i : Interval) (num den : Nat) : Bool :=
  if i.closed then i.low * den ≤ num * i.den && num * i.den ≤ i.high * den
  else i.low * den < num * i.den && num * i.den < i.high * den

/-- The better of the two points `d` and `d + 1` times `10^place` beside the value, if one lies in
the interval. -/
def Interval.onGrid (i : Interval) (tie : Tie) (place : Int) : Option Scientific :=
  let up := Nat.pow 10 place.toNat
  let down := Nat.pow 10 (-place).toNat
  let d := i.value * down / (i.den * up)
  let below := i.holds (d * up) down
  let above := i.holds ((d + 1) * up) down
  let twice := 2 * i.value * down
  let middle := (2 * d + 1) * i.den * up
  match below, above with
  | false, false => none
  | true, false => some ⟨d, place⟩
  | false, true => some ⟨d + 1, place⟩
  | true, true =>
    if twice < middle then some ⟨d, place⟩
    else if middle < twice then some ⟨d + 1, place⟩
    else match tie with
      | .upward => some ⟨d + 1, place⟩
      | .even => some ⟨if d % 2 = 0 then d else d + 1, place⟩

/-- Trailing zeros of the coefficient move into the exponent. -/
def Scientific.trim : Nat → Scientific → Scientific
  | 0, s => s
  | fuel + 1, s =>
    if s.coefficient % 10 = 0 ∧ s.coefficient ≠ 0 then
      trim fuel ⟨s.coefficient / 10, s.exponent + 1⟩
    else s

/-- The shortest decimal of a positive `m · 2^q`, with no trailing zero. -/
def shortest (tie : Tie) (m : Nat) (q : Int) : Scientific :=
  let i := Interval.ofBinary m q
  let first := leadingPlace i.value i.den
  let found := (List.range 17).findSome? fun n : Nat => i.onGrid tie (first - Int.ofNat n)
  (found.getD ⟨0, 0⟩).trim 20

end HomCircuit.Decimal
