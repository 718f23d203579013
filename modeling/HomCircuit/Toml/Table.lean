import HomCircuit.Toml.Basic

/-!
# HomCircuit.Toml.Table

Putting a document together from its lines. An item is written once, a table is begun by at most
one header, and a dotted key adds to tables that only dotted keys made.

```
a.b.c = 1        a and b are tables made by the dotted key
[a.b]            a may be made on the way; b is begun here, once
[[a.b]]          one more row of b
```

* `descend` — a change at the end of a path;
* `Members.add?` — a document with one more item;
* `assemble?` — the document of a list of lines.
-/

namespace HomCircuit.Toml

/-- An item with its key, taken apart into the last part and those before. -/
structure Entry where
  path : List String
  key : String
  item : Item

/-- The header of a table, or of one more row of it. -/
structure Header where
  path : List String
  key : String
  row : Bool

/-- A line that adds to the document. -/
inductive Line
  | entry (e : Entry)
  | header (h : Header)

/-- Changes the members of the table at the end of a path. Missing tables on the way are made with
the origin `made`; of rows, the latest is entered. -/
def descend (made : Origin) (change : Origin → Members → Option Members) :
    List String → Origin → Members → Option Members
  | [], origin, ms => change origin ms
  | k :: ks, _, ms =>
    match ms.lookup k with
    | none => (descend made change ks made []).map fun t => put k (.table made t) ms
    | some (.table origin t) =>
      if origin = .braces ∨ made = .dotted ∧ origin = .header then none
      else (descend made change ks origin t).map fun t => put k (.table origin t) ms
    | some (.rows (last :: earlier)) =>
      (descend made change ks .header last).map fun t => put k (.rows (t :: earlier)) ms
    | some _ => none

/-- The members of a table of some origin with one more item, unless its key is taken. -/
def Members.add? (origin : Origin) (ms : Members) (e : Entry) : Option Members :=
  descend .dotted
    (fun origin ms =>
      if (origin = .dotted) = (e.path = []) then none
      else if (ms.lookup e.key).isSome then none
      else some (ms ++ [(e.key, e.item)]))
    e.path origin ms

/-- The members of a table of some origin with more items. -/
def Members.addAll? (origin : Origin) (ms : Members) (es : List Entry) : Option Members :=
  es.foldlM (Members.add? origin) ms

/-- A document with one more table or row, which holds the entries. -/
def Members.begin? (ms : Members) (h : Header) (es : List Entry) : Option Members :=
  let start (ms : Members) : Option Members := Members.addAll? .header ms es
  descend .path
    (fun _ ms =>
      match h.row, ms.lookup h.key with
      | false, none => (start []).map fun t => put h.key (.table .header t) ms
      | false, some (.table .path t) => (start t).map fun t => put h.key (.table .header t) ms
      | true, none => (start []).map fun t => put h.key (.rows [t]) ms
      | true, some (.rows ts) => (start []).map fun t => put h.key (.rows (t :: ts)) ms
      | _, _ => none)
    h.path .header ms

/-- The entries before the first header, and each header with the entries after it. -/
def divide : List Line → List Entry × List (Header × List Entry)
  | [] => ([], [])
  | .entry e :: rest => ((e :: (divide rest).1), (divide rest).2)
  | .header h :: rest => ([], (h, (divide rest).1) :: (divide rest).2)

/-- The document of a list of lines. -/
def assemble? (lines : List Line) : Option Members := do
  let (front, tables) := divide lines
  tables.foldlM (fun ms (h, es) => ms.begin? h es) (← Members.addAll? .header [] front)

end HomCircuit.Toml
