import HomCircuit.Json.Basic

/-!
# HomCircuit.Json.Printer

Writing JSON documents.

* `render` — over several lines: two blanks of indentation a level, one member a line,
  `"key": value`, and `[]` or the empty braces where there is no member;
* `renderLine` — on one line, without blanks.

Only quotes, backslashes and control characters are escaped.
-/

namespace HomCircuit.Json

/-- The lower-case hexadecimal digits of a byte. -/
def hexByte (n : Nat) : List Char := [Nat.digitChar (n / 16), Nat.digitChar (n % 16)]

/-- One character within a string. -/
def escapeChar (c : Char) : List Char :=
  match c with
  | '"' => ['\\', '"']
  | '\\' => ['\\', '\\']
  | '\x08' => ['\\', 'b']
  | '\x0c' => ['\\', 'f']
  | '\n' => ['\\', 'n']
  | '\r' => ['\\', 'r']
  | '\t' => ['\\', 't']
  | c => if c.toNat < 0x20 then ['\\', 'u', '0', '0'] ++ hexByte c.toNat else [c]

/-- A string between its quotes. -/
def quoted (s : String) : List Char := '"' :: s.toList.flatMap escapeChar ++ ['"']

/-- A line break and the indentation of a level. -/
def newline (level : Nat) : List Char := '\n' :: List.replicate (2 * level) ' '

mutual

/-- A document whose first line is already indented to `level`. -/
def print (level : Nat) : Json → List Char
  | .null => ['n', 'u', 'l', 'l']
  | .bool true => ['t', 'r', 'u', 'e']
  | .bool false => ['f', 'a', 'l', 's', 'e']
  | .number l => l.text
  | .string s => quoted (s.getD "")
  | .array [] => ['[', ']']
  | .array (j :: rest) =>
    '[' :: newline (level + 1) ++ print (level + 1) j ++ printItems level rest
  | .object [] => ['\x7b', '\x7d']
  | .object ((k, v) :: rest) =>
    '\x7b' :: newline (level + 1) ++ quoted (k.getD "") ++ [':', ' '] ++ print (level + 1) v
      ++ printFields level rest

/-- The members of an array after the first, and the closing bracket. -/
def printItems (level : Nat) : List Json → List Char
  | [] => newline level ++ [']']
  | j :: rest => ',' :: newline (level + 1) ++ print (level + 1) j ++ printItems level rest

/-- The members of an object after the first, and the closing brace. -/
def printFields (level : Nat) : List (Option String × Json) → List Char
  | [] => newline level ++ ['\x7d']
  | (k, v) :: rest =>
    ',' :: newline (level + 1) ++ quoted (k.getD "") ++ [':', ' '] ++ print (level + 1) v
      ++ printFields level rest

end

mutual

/-- A document on one line, without blanks. -/
def compact : Json → List Char
  | .null => ['n', 'u', 'l', 'l']
  | .bool true => ['t', 'r', 'u', 'e']
  | .bool false => ['f', 'a', 'l', 's', 'e']
  | .number l => l.text
  | .string s => quoted (s.getD "")
  | .array items => '[' :: compactItems items
  | .object fields => '\x7b' :: compactFields fields

/-- The members of an array and its closing bracket. -/
def compactItems : List Json → List Char
  | [] => [']']
  | [j] => compact j ++ [']']
  | j :: rest => compact j ++ ',' :: compactItems rest

/-- The members of an object and its closing brace. -/
def compactFields : List (Option String × Json) → List Char
  | [] => ['\x7d']
  | [(k, v)] => quoted (k.getD "") ++ ':' :: compact v ++ ['\x7d']
  | (k, v) :: rest => quoted (k.getD "") ++ ':' :: compact v ++ ',' :: compactFields rest

end

/-- The text of a document on one line. -/
def renderLine (j : Json) : String := String.ofList (compact j)

/-- The text of a document. -/
def render (j : Json) : String := String.ofList (print 0 j)

end HomCircuit.Json
