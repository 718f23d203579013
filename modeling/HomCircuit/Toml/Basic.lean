/-!
# HomCircuit.Toml.Basic

Documents of the configuration language: nested tables of named items.

* `Item` — a scalar, an array, a table, or the rows of a table that headers in double brackets
  begin;
* `Origin` — how a table came to be, which decides where its members may still be written;
* `put` — members with one item replaced or added.
-/

namespace HomCircuit.Toml

/-- How a table came to be. -/
inductive Origin
  /-- Written in braces; it takes no more members. -/
  | braces
  /-- Begun by a header of its own, or the whole document. -/
  | header
  /-- Named on the way to another table by a header. -/
  | path
  /-- Named on the way to an item by a dotted key. -/
  | dotted
  deriving DecidableEq, Inhabited

/-- What a key stands for. -/
inductive Item
  | string (text : String)
  | integer (value : Int)
  | float
  | bool (value : Bool)
  /-- A date, a time of day, or both. -/
  | moment
  | array (items : List Item)
  | table (origin : Origin) (members : List (String × Item))
  /-- Rows of a table, the latest first. -/
  | rows (tables : List (List (String × Item)))
  deriving Inhabited

/-- Named items in the order in which they were added. -/
abbrev Members := List (String × Item)

/-- Members with the item under a key replaced, or added at the end. -/
def put (key : String) (item : Item) : Members → Members
  | [] => [(key, item)]
  | (k, i) :: rest => if k = key then (k, item) :: rest else (k, i) :: put key item rest

end HomCircuit.Toml
