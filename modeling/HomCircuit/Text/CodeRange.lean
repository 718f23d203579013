/-!
# HomCircuit.Text.CodeRange

Classes of characters as inclusive ranges of code points.

* `inRanges` — whether a character is in the class;
* `areApart` — whether the ranges ascend without touching, so that the class has one such list;
* `rangesSize` — how many code points there are in ranges that are apart.
-/

namespace HomCircuit.Text

/-- Whether a code point lies in one of the ranges. -/
def inRanges (ranges : List (Nat × Nat)) (c : Char) : Bool :=
  ranges.any fun r => r.1 ≤ c.toNat && c.toNat ≤ r.2

/-- Whether the ranges ascend and a code point lies between any two of them. -/
def areApart : List (Nat × Nat) → Bool
  | [] => true
  | [r] => r.1 ≤ r.2
  | r :: s :: rest => r.1 ≤ r.2 && r.2 + 1 < s.1 && areApart (s :: rest)

/-- The number of code points in ranges that are apart. -/
def rangesSize (ranges : List (Nat × Nat)) : Nat :=
  (ranges.map fun r => r.2 + 1 - r.1).foldr (· + ·) 0

end HomCircuit.Text
