import HomCircuit.Text.Hex

/-!
# HomCircuit.Toml.Quoted

Quoted text, in four forms.

```
"..."          one line, with escapes        '...'        one line, as it stands
"""..."""      several lines, with escapes   '''...'''    several lines, as they stand
```

* `readQuoted` — text on one line, as keys allow it;
* `readText` — text in any form.

In a text of several lines, a line end in front is left out, each line end is a single `\n`, and
up to two quotes may stand before the closing three. With escapes, a backslash at the end of a line
leaves out the blanks and line ends that follow.
-/

namespace HomCircuit.Toml

/-- Blanks within a line. -/
def isBlank (c : Char) : Bool := c == ' ' || c == '\t'

/-- Text without the blanks in front. -/
def skipBlanks (cs : List Char) : List Char := cs.dropWhile isBlank

/-- The rest after a line end. -/
def lineEnd? : List Char → Option (List Char)
  | '\n' :: rest => some rest
  | '\r' :: '\n' :: rest => some rest
  | _ => none

/-- Characters that stand for themselves: all but controls other than the tab. -/
def isPlain (c : Char) : Bool := c == '\t' || (0x20 ≤ c.toNat && c.toNat != 0x7f)

/-! ## escapes -/

/-- The character with a number, unless it is none. -/
def charAt? (n : Nat) : Option Char := if n.isValidChar then some (Char.ofNat n) else none

/-- The character with the number that so many hexadecimal digits write. -/
def readCodePoint (digits : Nat) (cs : List Char) : Option (Char × List Char) := do
  let front := cs.take digits
  if front.length < digits then none
  else some (← charAt? (← Text.hexFrom 0 front), cs.drop digits)

/-- The character that an escape stands for, after its backslash. -/
def readEscape : List Char → Option (Char × List Char)
  | 'b' :: rest => some ('\x08', rest)
  | 't' :: rest => some ('\t', rest)
  | 'n' :: rest => some ('\n', rest)
  | 'f' :: rest => some ('\x0c', rest)
  | 'r' :: rest => some ('\r', rest)
  | '"' :: rest => some ('"', rest)
  | '\\' :: rest => some ('\\', rest)
  | 'u' :: rest => readCodePoint 4 rest
  | 'U' :: rest => readCodePoint 8 rest
  | _ => none

/-! ## one line -/

/-- A text up to its closing quote, in reverse before `acc`; only `"` admits escapes. -/
def readLine (quote : Char) : Nat → List Char → List Char → Option (String × List Char)
  | 0, _, _ => none
  | _, _, [] => none
  | fuel + 1, acc, c :: rest =>
    if c = quote then some (String.ofList acc.reverse, rest)
    else if c = '\\' ∧ quote = '"' then
      match readEscape rest with
      | none => none
      | some (e, rest) => readLine quote fuel (e :: acc) rest
    else if isPlain c then readLine quote fuel (c :: acc) rest
    else none

/-- A text on one line, from its opening quote. -/
def readQuoted : List Char → Option (String × List Char)
  | '"' :: rest => readLine '"' (rest.length + 1) [] rest
  | '\'' :: rest => readLine '\'' (rest.length + 1) [] rest
  | _ => none

/-! ## several lines -/

/-- Whether the rest of the line is blank. -/
def endsLine (cs : List Char) : Bool := (lineEnd? (skipBlanks cs)).isSome

/-- Text without the blanks and line ends in front. -/
def skipBlankLines : List Char → List Char
  | '\r' :: '\n' :: rest => skipBlankLines rest
  | c :: rest => if c = '\n' ∨ isBlank c then skipBlankLines rest else c :: rest
  | [] => []

/-- The quotes that end a text of several lines: those that still belong to it, at most two, and
the rest after the closing three. -/
def closing? (quote : Char) (cs : List Char) : Option (Nat × List Char) :=
  let n := (cs.takeWhile (· = quote)).length
  if n < 3 then none else some (min (n - 3) 2, cs.drop (min n 5))

/-- A text up to its closing quotes, in reverse before `acc`; only `"` admits escapes. -/
def readLines (quote : Char) : Nat → List Char → List Char → Option (String × List Char)
  | 0, _, _ => none
  | fuel + 1, acc, cs =>
    match closing? quote cs, lineEnd? cs, cs with
    | some (n, rest), _, _ =>
      some (String.ofList (acc.reverse ++ List.replicate n quote), rest)
    | none, some rest, _ => readLines quote fuel ('\n' :: acc) rest
    | none, none, [] => none
    | none, none, c :: rest =>
      if c = '\\' ∧ quote = '"' then
        if endsLine rest then readLines quote fuel acc (skipBlankLines rest)
        else
          match readEscape rest with
          | none => none
          | some (e, rest) => readLines quote fuel (e :: acc) rest
      else if isPlain c then readLines quote fuel (c :: acc) rest
      else none

/-- A text of several lines after its opening quotes. -/
def readBlock (quote : Char) (cs : List Char) : Option (String × List Char) :=
  readLines quote (cs.length + 1) [] ((lineEnd? cs).getD cs)

/-- A text in any form. -/
def readText : List Char → Option (String × List Char)
  | '"' :: '"' :: '"' :: rest => readBlock '"' rest
  | '\'' :: '\'' :: '\'' :: rest => readBlock '\'' rest
  | cs => readQuoted cs

end HomCircuit.Toml
