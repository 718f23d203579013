import HomCircuit.Toml.Number
import HomCircuit.Toml.Quoted
import HomCircuit.Toml.Table

/-!
# HomCircuit.Toml.Reader

Reading a document: lines that hold an entry, a header, a comment or nothing.

* `readKey`, `readItem` — the two sides of an entry, each returning what follows it;
* `parse?` — the document that a text writes.

Items nest less than `depthLimit` deep, and keys have fewer parts than that.
-/

namespace HomCircuit.Toml

/-- A bound on nesting. -/
def depthLimit : Nat := 80

/-! ## blanks and comments -/

/-- Text without blanks, line ends and comments in front. A comment that holds a control character
is left from there on. -/
def skipLines (inComment : Bool) : List Char → List Char
  | '\r' :: '\n' :: rest => skipLines false rest
  | c :: rest =>
    if c = '\n' then skipLines false rest
    else if inComment then if isPlain c then skipLines true rest else c :: rest
    else if c = '#' then skipLines true rest
    else if isBlank c then skipLines false rest
    else c :: rest
  | [] => []

/-- The rest of a line after an entry or a header, if it is blank or a comment. -/
def restOfLine? (cs : List Char) : Option (List Char) :=
  match skipBlanks cs with
  | [] => some []
  | '#' :: rest => some ('#' :: rest)
  | cs => if (lineEnd? cs).isSome then some cs else none

/-! ## keys -/

/-- Characters of a key without quotes. -/
def isKeyChar (c : Char) : Bool := c.isAlphanum || c == '-' || c == '_'

/-- One part of a key. -/
def readPart (cs : List Char) : Option (String × List Char) :=
  match cs with
  | '"' :: _ | '\'' :: _ => readQuoted cs
  | _ =>
    match cs.takeWhile isKeyChar with
    | [] => none
    | front => some (String.ofList front, cs.dropWhile isKeyChar)

/-- Parts of a key with points between them and blanks around them, at most so many: those before
the last, and the last. -/
def readParts : Nat → List Char → Option ((List String × String) × List Char)
  | 0, _ => none
  | n + 1, cs => do
    let (part, rest) ← readPart (skipBlanks cs)
    match skipBlanks rest with
    | '.' :: rest =>
      let ((path, key), rest) ← readParts n rest
      some ((part :: path, key), rest)
    | rest => some (([], part), rest)

/-- A key. -/
def readKey (cs : List Char) : Option ((List String × String) × List Char) :=
  readParts (depthLimit - 1) cs

/-! ## items -/

/-- An entry, given how items are read. -/
def readEntry (item : List Char → Option (Item × List Char)) (cs : List Char) :
    Option (Entry × List Char) := do
  let ((path, key), cs) ← readKey cs
  let (item, cs) ← item (skipBlanks (← readChar '=' cs))
  some ({ path, key, item }, cs)

/-- The items of an array up to its closing bracket, in reverse before `acc`. A comma may stand
after the last. -/
def readArray (item : List Char → Option (Item × List Char)) :
    Nat → List Item → List Char → Option (Item × List Char)
  | 0, _, _ => none
  | fuel + 1, acc, cs =>
    match skipLines false cs with
    | ']' :: rest => some (.array acc.reverse, rest)
    | cs =>
      match item cs with
      | none => none
      | some (i, rest) =>
        match skipLines false rest with
        | ',' :: rest => readArray item fuel (i :: acc) rest
        | ']' :: rest => some (.array (i :: acc).reverse, rest)
        | _ => none

/-- The entries of a table in braces up to the closing one, in reverse before `acc`. -/
def readEntries (item : List Char → Option (Item × List Char)) :
    Nat → List Entry → List Char → Option (List Entry × List Char)
  | 0, _, _ => none
  | fuel + 1, acc, cs =>
    match readEntry item cs with
    | none => none
    | some (e, rest) =>
      match skipBlanks rest with
      | ',' :: rest => readEntries item fuel (e :: acc) rest
      | '\x7d' :: rest => some ((e :: acc).reverse, rest)
      | _ => none

/-- A table in braces after the opening one. -/
def readBraces (item : List Char → Option (Item × List Char)) (cs : List Char) :
    Option (Item × List Char) :=
  match skipBlanks cs with
  | '\x7d' :: rest => some (.table .braces [], rest)
  | cs => do
    let (es, rest) ← readEntries item (cs.length + 1) [] cs
    some (.table .braces (← Members.addAll? .braces [] es), rest)

/-- An item in which others nest less than `depth` deep. -/
def readItem (depth : Nat) (cs : List Char) : Option (Item × List Char) :=
  match cs with
  | '"' :: _ | '\'' :: _ => (readText cs).map fun (s, rest) => (.string s, rest)
  | 't' :: 'r' :: 'u' :: 'e' :: rest => some (.bool true, rest)
  | 'f' :: 'a' :: 'l' :: 's' :: 'e' :: rest => some (.bool false, rest)
  | '[' :: rest =>
    match depth with
    | 0 => none
    | depth + 1 => readArray (readItem depth) (rest.length + 1) [] rest
  | '\x7b' :: rest =>
    match depth with
    | 0 => none
    | depth + 1 => readBraces (readItem depth) rest
  | _ =>
    match readMoment cs with
    | some rest => some (.moment, rest)
    | none => readNumber cs

/-! ## documents -/

/-- A header after its opening bracket. -/
def readHeader (cs : List Char) : Option (Header × List Char) :=
  match cs with
  | '[' :: cs => do
    let ((path, key), cs) ← readKey cs
    some ({ path, key, row := true }, ← readChar ']' (← readChar ']' cs))
  | cs => do
    let ((path, key), cs) ← readKey cs
    some ({ path, key, row := false }, ← readChar ']' cs)

/-- One line that adds to the document. -/
def readLine? (cs : List Char) : Option (Line × List Char) :=
  match cs with
  | '[' :: cs => (readHeader cs).map fun (h, rest) => (.header h, rest)
  | cs => (readEntry (readItem (depthLimit - 1)) cs).map fun (e, rest) => (.entry e, rest)

/-- The lines up to the end, in reverse before `acc`. -/
def readDocument : Nat → List Line → List Char → Option (List Line)
  | 0, _, _ => none
  | fuel + 1, acc, cs =>
    match skipLines false cs with
    | [] => some acc.reverse
    | cs =>
      match readLine? cs with
      | none => none
      | some (line, rest) =>
        match restOfLine? rest with
        | none => none
        | some rest => readDocument fuel (line :: acc) rest

/-- The document that a text writes; a byte order mark may stand in front. -/
def parse? (s : String) : Option Members := do
  let cs := match s.toList with
    | '\ufeff' :: rest => rest
    | cs => cs
  assemble? (← readDocument (cs.length + 1) [] cs)

end HomCircuit.Toml
