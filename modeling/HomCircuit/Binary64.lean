/-!
# HomCircuit.Binary64

Binary64 numbers by their bit patterns. Parameters are kept this way, so that two of them are the
same exactly when their bits are, a NaN's payload included.

* `eq`, `lt`, `le` — the numeric comparison, for which both zeros are one number and a NaN is
  unequal to everything;
* `rank` — the place of a pattern on the number line, which those comparisons read;
* `toFloat`, `ofFloat` — the machine number, for arithmetic.
-/

namespace HomCircuit

/-- A binary64 number, held as its 64 bits. -/
structure Binary64 where
  bits : UInt64
  deriving DecidableEq, Inhabited

namespace Binary64

/-- The machine number with this pattern. -/
def toFloat (x : Binary64) : Float := Float.ofBits x.bits

/-- The pattern of a machine number. -/
def ofFloat (f : Float) : Binary64 := ⟨f.toBits⟩

/-- Every bit but the sign. -/
def magnitude (x : Binary64) : Nat := x.bits.toNat % (1 <<< 63)

/-- Whether the sign bit is set. -/
def isNegative (x : Binary64) : Bool := 1 <<< 63 ≤ x.bits.toNat

/-- The pattern of infinity without its sign. -/
def infinityMagnitude : Nat := 0x7ff * (1 <<< 52)

/-- A NaN lies beyond infinity. -/
def isNaN (x : Binary64) : Bool := infinityMagnitude < x.magnitude

/-- Whether the pattern is an infinity. -/
def isInfinite (x : Binary64) : Bool := x.magnitude = infinityMagnitude

/-- Whether the pattern stands for a real number. -/
def isFinite (x : Binary64) : Bool := x.magnitude < infinityMagnitude

/-- Place on the number line: patterns without sign are ordered as numbers are. -/
def rank (x : Binary64) : Int := if x.isNegative then -x.magnitude else x.magnitude

/-- Numeric equality. -/
def eq (x y : Binary64) : Bool := !x.isNaN && !y.isNaN && x.rank == y.rank

/-- Numeric "less than". -/
def lt (x y : Binary64) : Bool := !x.isNaN && !y.isNaN && x.rank < y.rank

/-- Numeric "at most". -/
def le (x y : Binary64) : Bool := !x.isNaN && !y.isNaN && x.rank ≤ y.rank

def zero : Binary64 := ⟨0⟩

def one : Binary64 := ⟨0x3ff0000000000000⟩

/-- The power `2 ^ (-n)` for `n ≤ 1022`. -/
def twoPowNeg (n : UInt64) : Binary64 := ⟨(1023 - n) <<< 52⟩

def nan : Binary64 := ⟨0x7ff8000000000000⟩

def infinity : Binary64 := ⟨0x7ff0000000000000⟩

def negInfinity : Binary64 := ⟨0xfff0000000000000⟩

/-- The significand and exponent of a finite pattern: its size is `m * 2 ^ q`. -/
def decompose (x : Binary64) : Nat × Int :=
  let field : Nat := x.magnitude / (1 <<< 52)
  let fraction : Nat := x.magnitude % (1 <<< 52)
  if field = 0 then (fraction, -1074) else ((1 <<< 52) + fraction, Int.ofNat field - 1075)

end Binary64

end HomCircuit
