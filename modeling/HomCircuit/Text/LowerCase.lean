import HomCircuit.Text.CaseTable

/-!
# HomCircuit.Text.LowerCase

Text in lower case by the full Unicode mapping.

* one-to-one mappings come from `lowerRuns`;
* `İ` becomes two characters, `i` and a combining dot;
* a sigma that ends a word, with a letter before and none after, becomes `ς`.
-/

namespace HomCircuit.Text

/-- The one-to-one lower-case mapping of a character. -/
def lowerChar (c : Char) : Char :=
  match lowerRuns.find? fun r =>
      r.first ≤ c.toNat && c.toNat ≤ r.last && (c.toNat - r.first) % r.step = 0 with
  | some r => Char.ofNat (Int.ofNat c.toNat + r.shift).toNat
  | none => c

/-- Whether the nearest character that counts has a case. -/
def nextToLetter (cs : List Char) : Bool :=
  match cs.dropWhile (inRanges ignorableRanges) with
  | c :: _ => inRanges casedRanges c
  | [] => false

/-- Lower case of `rest`, with the characters before it given last first. -/
def lowerFrom : List Char → List Char → List Char
  | _, [] => []
  | before, c :: rest =>
    let here :=
      if c = 'İ' then ['i', '\u0307']
      else if c = 'Σ' then
        [if nextToLetter before && !nextToLetter rest then 'ς' else 'σ']
      else [lowerChar c]
    here ++ lowerFrom (c :: before) rest

/-- A text in lower case. -/
def lower (s : String) : String := String.ofList (lowerFrom [] s.toList)

end HomCircuit.Text
