import HomCircuit.Json.Basic
import HomCircuit.Text.Hex
import HomCircuit.Text.Unsigned

/-!
# HomCircuit.Json.Access

Taking documents apart, and the notation of numbers that do not fit a JSON number:

```
natural numbers   a number below 2^53, otherwise a text of decimal digits
words             sixteen hexadecimal digits
real numbers      the word of their bits, or "nan"
```

* `field`, `optional`, `withDefault` — members of an object, read with a given reader;
* `nat?`, `word?`, `real?`, `listOf?` and the like — readers;
* `ofNat`, `ofWord`, `ofReal` — writers.
-/

namespace HomCircuit.Json

/-! ## readers -/

/-- The member of an object under a key. -/
def get? (j : Json) (key : String) : Option Json :=
  match j with
  | .object fields => fields.lookup (some key)
  | _ => none

/-- The member under a key, unless it is null. -/
def given? (j : Json) (key : String) : Option Json :=
  match j.get? key with
  | some .null => none
  | found => found

/-- The text of a string. -/
def text? : Json → Option String
  | .string s => s
  | _ => none

/-- The truth value of a document. -/
def bool? : Json → Option Bool
  | .bool b => some b
  | _ => none

/-- The members of an array. -/
def items? : Json → Option (List Json)
  | .array items => some items
  | _ => none

/-- The members of an object, if all keys are whole. -/
def members? : Json → Option (List (String × Json))
  | .object fields => fields.mapM fun (k, v) => k.map (·, v)
  | _ => none

/-- A natural number, or the text of one. -/
def nat? : Json → Option Nat
  | .number l => l.toNat?
  | .string (some s) => Text.decimal? s.toList
  | _ => none

/-- A natural number below `2 ^ 64`. -/
def word64? (j : Json) : Option UInt64 := (j.nat?.filter (· < UInt64.size)).map UInt64.ofNat

/-- A natural number below `2 ^ 32`. -/
def word32? (j : Json) : Option UInt32 := (j.nat?.filter (· < UInt32.size)).map UInt32.ofNat

/-- A word in hexadecimal. -/
def word? (j : Json) : Option UInt64 := j.text? >>= Text.hexWord?

/-- A byte string in hexadecimal. -/
def bytes? (j : Json) : Option (List UInt8) := j.text? >>= Text.hexBytes?

/-- A real number: a literal, the name of a number that has none, or the word of its bits. -/
def real? : Json → Option Binary64
  | .number l => l.toBinary64?
  | .string (some "nan") => some .nan
  | .string (some "inf") => some .infinity
  | .string (some "-inf") => some .negInfinity
  | j => j.word?.map (⟨·⟩)

/-- An array whose members are all read. -/
def listOf? {α : Type} (read : Json → Option α) (j : Json) : Option (List α) :=
  j.items? >>= fun items => items.mapM read

/-- An array of two members. -/
def pairOf? {α β : Type} (f : Json → Option α) (g : Json → Option β) : Json → Option (α × β)
  | .array [a, b] => do some (← f a, ← g b)
  | _ => none

/-- An object whose members are all read. -/
def mapOf? {α : Type} (read : Json → Option α) (j : Json) : Option (List (String × α)) :=
  j.members? >>= fun fields => fields.mapM fun (k, v) => (read v).map (k, ·)

/-- A member that has to be there. -/
def field {α : Type} (j : Json) (key : String) (read : Json → Option α) : Option α :=
  j.get? key >>= read

/-- A member that may be missing or null. -/
def optional {α : Type} (j : Json) (key : String) (read : Json → Option α) : Option (Option α) :=
  match j.given? key with
  | none => some none
  | some v => (read v).map some

/-- A member with a default. -/
def withDefault {α : Type} (j : Json) (key : String) (read : Json → Option α) (d : α) : Option α :=
  (j.optional key read).map (·.getD d)

/-! ## writers -/

/-- A natural number. -/
def ofNat (n : Nat) : Json := if n < 1 <<< 53 then .nat n else .text (toString n)

/-- A word in hexadecimal. -/
def ofWord (w : UInt64) : Json := .text (Text.hexWord w)

/-- A real number by its bits. -/
def ofReal (x : Binary64) : Json := if x.isNaN then .text "nan" else ofWord x.bits

/-- A machine number by its bits. -/
def ofFloat (f : Float) : Json := ofReal (.ofFloat f)

/-- An array of written members. -/
def list {α : Type} (write : α → Json) (as : List α) : Json := .array (as.map write)

/-- An array of natural numbers. -/
def nats (ns : List Nat) : Json := list nat ns

/-- Null for nothing. -/
def maybe {α : Type} (write : α → Json) : Option α → Json
  | some a => write a
  | none => .null

end HomCircuit.Json
