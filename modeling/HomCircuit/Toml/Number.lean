import HomCircuit.Text.Hex
import HomCircuit.Text.Unsigned
import HomCircuit.Toml.Basic

/-!
# HomCircuit.Toml.Number

Numbers, dates and times.

```
+1_000   0x1F   0o17   0b101         integers of 64 bits with sign
-1.5e+3   inf   -nan                 floats
1979-05-27T07:32:00.5-07:00          a date, a time of day, or both with an offset
```

* `readNumber`, `readMoment` — the two kinds, each returning what follows it;
* `isTooLarge` — whether a float is beyond the finite numbers.
-/

namespace HomCircuit.Toml

/-! ## digits -/

/-- The value of a digit in a base up to sixteen. -/
def digit? (base : Nat) (c : Char) : Option Nat := (Text.hexDigit? c).filter (· < base)

/-- More digits, each with at most one underscore before it. -/
def moreDigits (base : Nat) : List Char → Option (List Nat × List Char)
  | '_' :: c :: rest =>
    match digit? base c with
    | none => none
    | some d => (moreDigits base rest).map fun (ds, rest) => (d :: ds, rest)
  | c :: rest =>
    match digit? base c with
    | none => some ([], c :: rest)
    | some d => (moreDigits base rest).map fun (ds, rest) => (d :: ds, rest)
  | [] => some ([], [])

/-- One digit or more, with single underscores between them. -/
def readDigits (base : Nat) : List Char → Option (List Nat × List Char)
  | [] => none
  | c :: rest => do
    let d ← digit? base c
    let (ds, rest) ← moreDigits base rest
    some (d :: ds, rest)

/-- The number that digits write. -/
def value (base : Nat) (ds : List Nat) : Nat := ds.foldl (fun acc d => acc * base + d) 0

/-! ## numbers -/

/-- The sign in front, `true` for minus, and the rest. -/
def readSign : List Char → Bool × List Char
  | '-' :: rest => (true, rest)
  | '+' :: rest => (false, rest)
  | cs => (false, cs)

/-- The digits before the point; a zero in front stands alone. -/
def readWhole : List Char → Option (List Nat × List Char)
  | '0' :: rest => some ([0], rest)
  | cs => readDigits 10 cs

/-- The digits after a point, if there is one. -/
def readFraction : List Char → Option (List Nat × List Char)
  | '.' :: rest => readDigits 10 rest
  | cs => some ([], cs)

/-- An exponent, if there is one. -/
def readExponent : List Char → Option (Option Int × List Char)
  | c :: rest =>
    if c = 'e' ∨ c = 'E' then do
      let (negative, rest) := readSign rest
      let (ds, rest) ← readDigits 10 rest
      let n := Int.ofNat (value 10 ds)
      some (some (if negative then -n else n), rest)
    else some (none, c :: rest)
  | [] => some (none, [])

/-- Whether `digits · 10^exponent` rounds to something beyond the finite numbers, that is reaches
the middle between the largest of them and the next step. -/
def isTooLarge (digits : List Nat) (exponent : Int) : Bool :=
  let ds := digits.dropWhile (· = 0)
  let order := Int.ofNat ds.length + exponent
  let bound := (1 <<< 1024) - (1 <<< 970)
  if ds.isEmpty ∨ order < 300 then false
  else if 320 < order then true
  else if 0 ≤ exponent then bound ≤ value 10 ds * Nat.pow 10 exponent.toNat
  else bound * Nat.pow 10 (-exponent).toNat ≤ value 10 ds

/-- Infinity or no number, after its sign. -/
def readSpecial : List Char → Option (Item × List Char)
  | 'i' :: 'n' :: 'f' :: rest => some (.float, rest)
  | 'n' :: 'a' :: 'n' :: rest => some (.float, rest)
  | _ => none

/-- An integer, if it fits in 64 bits. -/
def integer? (negative : Bool) (n : Nat) : Option Item :=
  if n < 1 <<< 63 then some (.integer (if negative then -Int.ofNat n else Int.ofNat n))
  else if negative ∧ n = 1 <<< 63 then some (.integer (-Int.ofNat n))
  else none

/-- A decimal number; with a fraction or an exponent it is a float, which must not be too large. -/
def readDecimal (cs : List Char) : Option (Item × List Char) := do
  let (negative, cs) := readSign cs
  match readSpecial cs with
  | some r => some r
  | none =>
    let (whole, cs) ← readWhole cs
    let (fraction, cs) ← readFraction cs
    match ← readExponent cs with
    | (none, cs) =>
      if fraction.isEmpty then some (← integer? negative (value 10 whole), cs)
      else if !negative && isTooLarge (whole ++ fraction) (-Int.ofNat fraction.length) then none
      else some (.float, cs)
    | (some e, cs) =>
      if !negative && isTooLarge (whole ++ fraction) (e - Int.ofNat fraction.length) then none
      else some (.float, cs)

/-- An integer in a base other than ten. -/
def readBase (base : Nat) (cs : List Char) : Option (Item × List Char) := do
  let (ds, rest) ← readDigits base cs
  some (← integer? false (value base ds), rest)

/-- A number. -/
def readNumber : List Char → Option (Item × List Char)
  | '0' :: 'x' :: rest => readBase 16 rest
  | '0' :: 'o' :: rest => readBase 8 rest
  | '0' :: 'b' :: rest => readBase 2 rest
  | cs => readDecimal cs

/-! ## dates and times -/

/-- A number of exactly so many digits, within bounds. -/
def readFixed (digits low high : Nat) (cs : List Char) : Option (Nat × List Char) := do
  let front := cs.take digits
  if front.length < digits then none
  else
    let n ← Text.decimal? front
    if low ≤ n ∧ n ≤ high then some (n, cs.drop digits) else none

/-- The rest after a character. -/
def readChar (c : Char) : List Char → Option (List Char)
  | d :: rest => if d = c then some rest else none
  | [] => none

/-- Days of a month. -/
def daysOf (year month : Nat) : Nat :=
  if month = 2 then
    if year % 4 = 0 ∧ (year % 100 ≠ 0 ∨ year % 400 = 0) then 29 else 28
  else if month = 4 ∨ month = 6 ∨ month = 9 ∨ month = 11 then 30
  else 31

/-- The rest after a date. -/
def readDate (cs : List Char) : Option (List Char) := do
  let (year, cs) ← readFixed 4 0 9999 cs
  let cs ← readChar '-' cs
  let (month, cs) ← readFixed 2 1 12 cs
  let cs ← readChar '-' cs
  let (_, cs) ← readFixed 2 1 (daysOf year month) cs
  some cs

/-- The rest after a fraction of a second, if there is one. -/
def skipFraction : List Char → List Char
  | '.' :: c :: rest =>
    if c.isDigit then rest.dropWhile Char.isDigit else '.' :: c :: rest
  | cs => cs

/-- The rest after a time of day; a minute may have a second more than sixty. -/
def readTime (cs : List Char) : Option (List Char) := do
  let (_, cs) ← readFixed 2 0 23 cs
  let cs ← readChar ':' cs
  let (_, cs) ← readFixed 2 0 59 cs
  let cs ← readChar ':' cs
  let (_, cs) ← readFixed 2 0 60 cs
  some (skipFraction cs)

/-- The rest after an offset, if there is one. -/
def readOffset (cs : List Char) : Option (List Char) :=
  match cs with
  | c :: rest =>
    if c = 'Z' ∨ c = 'z' then some rest
    else if c = '+' ∨ c = '-' then do
      let (_, rest) ← readFixed 2 0 23 rest
      let rest ← readChar ':' rest
      let (_, rest) ← readFixed 2 0 59 rest
      some rest
    else some cs
  | [] => some []

/-- The rest after a date, with a time after it if one follows, or after a time of day. -/
def readMoment (cs : List Char) : Option (List Char) :=
  match readDate cs with
  | none => readTime cs
  | some [] => some []
  | some (c :: rest) =>
    if c = 'T' ∨ c = 't' ∨ c = ' ' then
      match readTime rest with
      | none => some (c :: rest)
      | some rest => readOffset rest
    else some (c :: rest)

end HomCircuit.Toml
