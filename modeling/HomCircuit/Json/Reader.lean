import HomCircuit.Json.Basic
import HomCircuit.Text.Hex
import HomCircuit.Text.Unsigned

/-!
# HomCircuit.Json.Reader

Reading JSON text: strict, with blanks around values only, no control characters in strings, and
nothing after the document.

* `Json.parse?` — the document that a text writes;
* `readString`, `readNumber` — the two lexical forms, each returning what follows it.
-/

namespace HomCircuit.Json

/-- Blanks between tokens. -/
def isSpace (c : Char) : Bool := c == ' ' || c == '\n' || c == '\t' || c == '\r'

/-- Text without the blanks in front. -/
def skip (cs : List Char) : List Char := cs.dropWhile isSpace

/-! ## strings -/

/-- Four hexadecimal digits. -/
def hexUnit? : List Char → Option (Nat × List Char)
  | a :: b :: c :: d :: rest => do
    let a ← Text.hexDigit? a
    let b ← Text.hexDigit? b
    let c ← Text.hexDigit? c
    let d ← Text.hexDigit? d
    some (a * 4096 + b * 256 + c * 16 + d, rest)
  | _ => none

/-- The character after a backslash, other than `u`. -/
def shortEscape? : Char → Option Char
  | '"' => some '"'
  | '\\' => some '\\'
  | '/' => some '/'
  | 'b' => some '\x08'
  | 'f' => some '\x0c'
  | 'n' => some '\n'
  | 'r' => some '\r'
  | 't' => some '\t'
  | _ => none

/-- One piece of a string: a character, or a 16-bit unit that an escape names. -/
inductive Piece
  | char (c : Char)
  | unit (u : Nat)
  deriving DecidableEq

/-- Pieces as characters, where a high unit needs the low one after it. -/
def joinPieces : List Piece → Option (List Char)
  | [] => some []
  | .char c :: rest => (joinPieces rest).map (c :: ·)
  | .unit u :: rest =>
    if u < 0xd800 ∨ 0xdfff < u then (joinPieces rest).map (Char.ofNat u :: ·)
    else
      match rest with
      | .unit v :: rest =>
        if u < 0xdc00 ∧ 0xdc00 ≤ v ∧ v ≤ 0xdfff then
          (joinPieces rest).map
            (Char.ofNat (0x10000 + (u - 0xd800) * 0x400 + (v - 0xdc00)) :: ·)
        else none
      | _ => none

/-- The pieces of a string up to its closing quote, in reverse before `acc`. -/
def readPieces : Nat → List Piece → List Char → Option (List Piece × List Char)
  | 0, _, _ => none
  | fuel + 1, acc, cs =>
    match cs with
    | [] => none
    | '"' :: rest => some (acc.reverse, rest)
    | '\\' :: 'u' :: rest =>
      match hexUnit? rest with
      | none => none
      | some (u, rest) => readPieces fuel (.unit u :: acc) rest
    | '\\' :: e :: rest =>
      match shortEscape? e with
      | none => none
      | some c => readPieces fuel (.char c :: acc) rest
    | c :: rest => if c.toNat < 0x20 ∨ c = '\\' then none else readPieces fuel (.char c :: acc) rest

/-- A string after its opening quote. -/
def readString (cs : List Char) : Option (Option String × List Char) :=
  (readPieces (cs.length + 1) [] cs).map fun (ps, rest) => ((joinPieces ps).map String.ofList, rest)

/-! ## numbers -/

/-- A run of digits, possibly empty. -/
def readDigits : List Char → List Nat × List Char
  | [] => ([], [])
  | c :: rest =>
    match Text.digit? c with
    | none => ([], c :: rest)
    | some d =>
      let (ds, rest) := readDigits rest
      (d :: ds, rest)

/-- A run of one digit or more. -/
def readDigits1 (cs : List Char) : Option (List Nat × List Char) :=
  match readDigits cs with
  | ([], _) => none
  | r => some r

/-- A fraction, if a point follows. -/
def readFraction : List Char → Option (Option (List Nat) × List Char)
  | '.' :: rest => (readDigits1 rest).map fun (ds, rest) => (some ds, rest)
  | cs => some (none, cs)

/-- The sign and digits of an exponent. -/
def readSigned : List Char → Option ((Bool × List Nat) × List Char)
  | '+' :: rest => (readDigits1 rest).map fun (ds, rest) => ((true, ds), rest)
  | '-' :: rest => (readDigits1 rest).map fun (ds, rest) => ((false, ds), rest)
  | cs => (readDigits1 cs).map fun (ds, rest) => ((true, ds), rest)

/-- An exponent, if its letter follows. -/
def readExponent : List Char → Option (Option (Bool × List Nat) × List Char)
  | 'e' :: rest | 'E' :: rest => (readSigned rest).map fun (e, rest) => (some e, rest)
  | cs => some (none, cs)

/-- A number literal; a zero in front stands alone. -/
def readNumber (cs : List Char) : Option (Decimal.Literal × List Char) :=
  let (negative, cs) := match cs with
    | '-' :: rest => (true, rest)
    | _ => (false, cs)
  match readDigits1 cs with
  | none => none
  | some (whole, rest) =>
    if whole.head? = some 0 ∧ whole.length ≠ 1 then none
    else do
      let (fraction, rest) ← readFraction rest
      let (exponent, rest) ← readExponent rest
      some ({ negative, whole, fraction, exponent }, rest)

/-! ## documents -/

/-- The rest after a fixed word. -/
def readWord (word : List Char) (cs : List Char) : Option (List Char) :=
  if word.isPrefixOf cs then some (cs.drop word.length) else none

mutual

/-- A document with blanks before it allowed. -/
def readValue : Nat → List Char → Option (Json × List Char)
  | 0, _ => none
  | fuel + 1, cs =>
    match skip cs with
    | '"' :: rest => (readString rest).map fun (s, rest) => (.string s, rest)
    | '[' :: rest =>
      match skip rest with
      | ']' :: rest => some (.array [], rest)
      | rest => (readItems fuel [] rest).map fun (items, rest) => (.array items, rest)
    | '\x7b' :: rest =>
      match skip rest with
      | '\x7d' :: rest => some (.object [], rest)
      | rest => (readFields fuel [] rest).map fun (fields, rest) => (.object fields, rest)
    | 'n' :: rest => (readWord ['u', 'l', 'l'] rest).map (.null, ·)
    | 't' :: rest => (readWord ['r', 'u', 'e'] rest).map (.bool true, ·)
    | 'f' :: rest => (readWord ['a', 'l', 's', 'e'] rest).map (.bool false, ·)
    | cs => (readNumber cs).map fun (l, rest) => (.number l, rest)

/-- The members of an array up to its closing bracket, in reverse before `acc`. -/
def readItems : Nat → List Json → List Char → Option (List Json × List Char)
  | 0, _, _ => none
  | fuel + 1, acc, cs =>
    match readValue fuel cs with
    | none => none
    | some (j, rest) =>
      match skip rest with
      | ',' :: rest => readItems fuel (j :: acc) rest
      | ']' :: rest => some ((j :: acc).reverse, rest)
      | _ => none

/-- The members of an object up to its closing brace, in reverse before `acc`. -/
def readFields : Nat → List (Option String × Json) → List Char →
    Option (List (Option String × Json) × List Char)
  | 0, _, _ => none
  | fuel + 1, acc, cs =>
    match skip cs with
    | '"' :: rest =>
      match readString rest with
      | none => none
      | some (key, rest) =>
        match skip rest with
        | ':' :: rest =>
          match readValue fuel rest with
          | none => none
          | some (j, rest) =>
            match skip rest with
            | ',' :: rest => readFields fuel ((key, j) :: acc) rest
            | '\x7d' :: rest => some (((key, j) :: acc).reverse, rest)
            | _ => none
        | _ => none
    | _ => none

end

/-- The document that a text writes, with nothing but blanks after it. A value takes at least one
character for each step that its reading nests, so the fuel does not run out. -/
def parse? (s : String) : Option Json :=
  let cs := s.toList
  match readValue (2 * cs.length + 2) cs with
  | none => none
  | some (j, rest) => if (skip rest).isEmpty then some j else none

end HomCircuit.Json
