import HomCircuit.Decimal.Literal

/-!
# HomCircuit.Json.Basic

JSON documents as values. Numbers stay literals, so that nothing is lost before a reader of the
document decides what a number may be, and a string is absent where its escapes name half of a
surrogate pair.

* `Json.isProper` — no such string, and every number has a value;
* `Json.depth` — how deep arrays and objects are nested.
-/

namespace HomCircuit

/-- A JSON document. -/
inductive Json
  | null
  | bool (b : Bool)
  | number (l : Decimal.Literal)
  | string (s : Option String)
  | array (items : List Json)
  | object (fields : List (Option String × Json))
  deriving Inhabited

namespace Json

/-- A whole number as a document. -/
def nat (n : Nat) : Json := .number (.ofNat n)

/-- A text as a document. -/
def text (s : String) : Json := .string (some s)

/-- An object with the given keys. -/
def record (fields : List (String × Json)) : Json :=
  .object (fields.map fun (k, v) => (some k, v))

mutual

/-- Whether every string is whole and every number has a value. -/
def isProper : Json → Bool
  | .null | .bool _ => true
  | .number l => l.toBinary64?.isSome
  | .string s => s.isSome
  | .array items => areProper items
  | .object fields => fieldsProper fields

/-- Whether all documents of a list are proper. -/
def areProper : List Json → Bool
  | [] => true
  | j :: rest => isProper j && areProper rest

/-- Whether all keys and values of an object are proper. -/
def fieldsProper : List (Option String × Json) → Bool
  | [] => true
  | (k, v) :: rest => k.isSome && isProper v && fieldsProper rest

end

mutual

/-- How deep arrays and objects are nested: 0 for anything else. -/
def depth : Json → Nat
  | .array items => itemsDepth items + 1
  | .object fields => fieldsDepth fields + 1
  | _ => 0

/-- The greatest depth in a list. -/
def itemsDepth : List Json → Nat
  | [] => 0
  | j :: rest => max (depth j) (itemsDepth rest)

/-- The greatest depth among the values of an object. -/
def fieldsDepth : List (Option String × Json) → Nat
  | [] => 0
  | (_, v) :: rest => max (depth v) (fieldsDepth rest)

end

end Json

end HomCircuit
