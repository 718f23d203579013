import HomCircuit.Binary64

/-!
# HomCircuit.Decimal.Literal

Number literals: a sign, digits, an optional fraction and an optional exponent.

```
- 12 . 50 e + 3
```

* `Literal.text` — the characters of a literal;
* `Literal.toNat?` — the value of a literal that is a whole number without sign;
* `Literal.toBinary64?` — the value of any literal, by scaling: a 64-bit significand is rounded
  once, then multiplied or divided by a power of ten with one more rounding. Up to 15 digits with
  exponents up to 22 come out exactly rounded; longer ones may be off in the last place.
-/

namespace HomCircuit.Decimal

/-- A number literal taken apart. The exponent is a sign, `true` for upward, and its digits. -/
structure Literal where
  negative : Bool := false
  whole : List Nat
  fraction : Option (List Nat) := none
  exponent : Option (Bool × List Nat) := none
  deriving DecidableEq, Inhabited

/-- The character of a digit below ten. -/
def digitChar (d : Nat) : Char := Nat.digitChar d

/-- The number that digits write, continued from `acc`. -/
def valueFrom (acc : Nat) (ds : List Nat) : Nat := ds.foldl (fun acc d => acc * 10 + d) acc

/-- The digits of a number, most significant first. -/
def digitsOf (n : Nat) : List Nat := (Nat.toDigits 10 n).map fun c => c.toNat - '0'.toNat

namespace Literal

/-- The characters of a literal. -/
def text (l : Literal) : List Char :=
  let sign := if l.negative then ['-'] else []
  let fraction := match l.fraction with
    | none => []
    | some ds => '.' :: ds.map digitChar
  let exponent := match l.exponent with
    | none => []
    | some (up, ds) => 'e' :: (if up then '+' else '-') :: ds.map digitChar
  sign ++ l.whole.map digitChar ++ fraction ++ exponent

/-- The literal of a whole number. -/
def ofNat (n : Nat) : Literal := { whole := digitsOf n }

/-- The value of a literal without sign, fraction and exponent. -/
def toNat? (l : Literal) : Option Nat :=
  if l.negative || l.fraction.isSome || l.exponent.isSome then none
  else some (valueFrom 0 l.whole)

/-! ## value by scaling -/

/-- The power of ten with an exponent up to 308, correctly rounded. -/
def powerOfTen (n : Nat) : Float := Float.ofScientific 1 false n

/-- `f · 10^exponent`, with a division by `1e308` in front as long as the exponent is below -308;
what is too large has no value. -/
def scaleBy : Nat → Float → Int → Option Float
  | 0, f, _ => some f
  | fuel + 1, f, exponent =>
    if exponent.natAbs ≤ 308 then
      if 0 ≤ exponent then
        let r := f * powerOfTen exponent.natAbs
        if r.isInf then none else some r
      else some (f / powerOfTen exponent.natAbs)
    else if f == 0.0 then some f
    else if 0 ≤ exponent then none
    else scaleBy fuel (f / powerOfTen 308) (exponent + 308)

/-- A significand times a power of ten, which for an exponent of zero leaves it alone. Four divisions
take any 64-bit number to zero. -/
def scale (significand : Nat) (exponent : Int) : Option Float :=
  let f := significand.toUInt64.toFloat
  if exponent = 0 then some f else scaleBy 4 f exponent

/-- The number that digits continue as long as it fits in 64 bits, with the digits left over. -/
def gather : Nat → List Nat → Nat × List Nat
  | acc, [] => (acc, [])
  | acc, d :: rest =>
    if acc * 10 + d < UInt64.size then gather (acc * 10 + d) rest else (acc, d :: rest)

/-- Whether an exponent leaves the 31-bit range. -/
def exponentTooLong (ds : List Nat) : Bool := 1 <<< 31 ≤ valueFrom 0 ds

/-- The value without the sign: digits past the 64-bit range count for their place only. -/
def size? (l : Literal) : Option Float :=
  let (head, dropped) := gather 0 l.whole
  let (significand, place) :=
    match l.fraction with
    | none => (head, Int.ofNat dropped.length)
    | some ds =>
      let (all, left) := gather head ds
      (all, Int.ofNat dropped.length - Int.ofNat (ds.length - left.length))
  match l.exponent with
  | none => scale significand place
  | some (up, ds) =>
    if exponentTooLong ds then
      if significand ≠ 0 ∧ up then none else some 0.0
    else
      let e := Int.ofNat (valueFrom 0 ds)
      scale significand (if up then place + e else place - e)

/-- The value of a literal, unless it is too large for a finite number. -/
def toBinary64? (l : Literal) : Option Binary64 :=
  l.size?.map fun f => Binary64.ofFloat (if l.negative then -f else f)

end Literal

end HomCircuit.Decimal
