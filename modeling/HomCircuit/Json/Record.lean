import HomCircuit.Json.Basic

/-!
# HomCircuit.Json.Record

Reading records with declared fields from documents.

A record is an object with each declared key at most once, other keys being ignored, or an array of
the fields in order, whose end may be left off.

* `fields?` — the document of each declared field, where it is given;
* `required`, `defaulted` — a field that has to be there, and one that may be missing or null;
* `exactNat?`, `items?`, `pair?` — the strict readers of what stands in a field.
-/

namespace HomCircuit.Json.Record

/-- The value of a key that stands in an object at most once. -/
def single? (fields : List (Option String × Json)) (key : String) : Option (Option Json) :=
  match fields.filter (·.1 == some key) with
  | [] => some none
  | [(_, v)] => some (some v)
  | _ => none

/-- The documents of declared fields. -/
def fields? (keys : List String) : Json → Option (List (Option Json))
  | .object fields =>
    if fields.all (·.1.isSome) then keys.mapM (single? fields) else none
  | .array items =>
    if items.length ≤ keys.length then
      some (items.map some ++ List.replicate (keys.length - items.length) none)
    else none
  | _ => none

/-- A field that has to be there. -/
def required {α : Type} (read : Json → Option α) (found : Option Json) : Option α := found >>= read

/-- A field that may be missing or null. -/
def defaulted {α : Type} (read : Json → Option α) : Option Json → Option (Option α)
  | none => some none
  | some .null => some none
  | some v => (read v).map some

/-- A text. -/
def text? : Json → Option String
  | .string s => s
  | _ => none

/-- A truth value. -/
def bool? : Json → Option Bool
  | .bool b => some b
  | _ => none

/-- A whole number below `2 ^ bits`, written as such. -/
def exactNat? (bits : Nat) : Json → Option Nat
  | .number l => l.toNat?.filter (· < 1 <<< bits)
  | _ => none

/-- A 64-bit number. -/
def word64? (j : Json) : Option UInt64 := (exactNat? 64 j).map UInt64.ofNat

/-- A 32-bit number. -/
def word32? (j : Json) : Option UInt32 := (exactNat? 32 j).map UInt32.ofNat

/-- Any number. -/
def real? : Json → Option Binary64
  | .number l => l.toBinary64?
  | _ => none

/-- An array whose members are all read. -/
def items? {α : Type} (read : Json → Option α) : Json → Option (List α)
  | .array items => items.mapM read
  | _ => none

/-- An array of two members. -/
def pair? {α β : Type} (f : Json → Option α) (g : Json → Option β) : Json → Option (α × β)
  | .array [a, b] => do some (← f a, ← g b)
  | _ => none

end HomCircuit.Json.Record
