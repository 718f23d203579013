import HomCircuit.Bytes

/-!
# HomCircuit.Text.Hex

Words and byte strings in lower-case hexadecimal.

* `hexWord`, `hexBytes` — sixteen digits for a word, two for each byte;
* `hexWord?`, `hexBytes?` — the words and byte strings that a text writes, in either case.
-/

namespace HomCircuit.Text

/-- The value of a hexadecimal digit. -/
def hexDigit? (c : Char) : Option Nat :=
  if '0' ≤ c ∧ c ≤ '9' then some (c.toNat - '0'.toNat)
  else if 'a' ≤ c ∧ c ≤ 'f' then some (c.toNat - 'a'.toNat + 10)
  else if 'A' ≤ c ∧ c ≤ 'F' then some (c.toNat - 'A'.toNat + 10)
  else none

/-- The lower-case digits of a number, filled with zeros to a width. -/
def hexPadded (width n : Nat) : List Char :=
  let ds := Nat.toDigits 16 n
  List.replicate (width - ds.length) '0' ++ ds

/-- A word in sixteen digits. -/
def hexWord (w : UInt64) : String := String.ofList (hexPadded 16 w.toNat)

/-- A byte string in two digits a byte. -/
def hexBytes (bs : List UInt8) : String :=
  String.ofList (bs.flatMap fun b => hexPadded 2 b.toNat)

/-- The number that digits continue from `acc`. -/
def hexFrom (acc : Nat) : List Char → Option Nat
  | [] => some acc
  | c :: rest =>
    match hexDigit? c with
    | some d => hexFrom (acc * 16 + d) rest
    | none => none

/-- The word that sixteen digits write. -/
def hexWord? (s : String) : Option UInt64 :=
  if s.length = 16 then (hexFrom 0 s.toList).map UInt64.ofNat else none

/-- The bytes that pairs of digits write, in reverse before `acc`. -/
def hexPairs (acc : List UInt8) : List Char → Option (List UInt8)
  | [] => some acc.reverse
  | [_] => none
  | a :: b :: rest =>
    match hexDigit? a, hexDigit? b with
    | some x, some y => hexPairs (UInt8.ofNat (x * 16 + y) :: acc) rest
    | _, _ => none

/-- The byte string that a text writes. -/
def hexBytes? (s : String) : Option (List UInt8) := hexPairs [] s.toList

end HomCircuit.Text
