/-!
# HomCircuit.Text.Between

The pieces of a text that a mark divides; there is one piece more than there are marks.

```
between ',' "a,,b"  =  ["a", "", "b"]
```
-/

namespace HomCircuit.Text

/-- The characters between marks. -/
def between (mark : Char) : List Char → List (List Char)
  | [] => [[]]
  | c :: rest =>
    if c = mark then [] :: between mark rest
    else
      match between mark rest with
      | [] => [[c]]
      | front :: more => (c :: front) :: more

end HomCircuit.Text
