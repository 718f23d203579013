import HomCircuit.Boundary.Entry
import HomCircuit.Report.Key

/-!
# HomCircuit.Report.Boundary

What foreign callers hand over and are told, as JSON reports.

* `Words.ofReport?` — words by themselves, under a name, or put together from others;
* `Reply.report` — a status with a result or with the text of a fault.
-/

namespace HomCircuit.Boundary

/-- How deep words may be put together from others. -/
def wordsDepth : Nat := 128

mutual

/-- Words, of which only the first few may be taken; those under a name are found with `kept?`. -/
def wordsOf? (kept? : String → Option (List UInt64)) : Nat → Json → Option (List UInt64)
  | 0, _ => none
  | depth + 1, j => do
    let words ←
      if let some n := j.get? "ref" then n.text? >>= kept?
      else if let some ws := j.get? "words" then ws.listOf? Json.word?
      else if let some ns := j.get? "nums" then ns.listOf? Json.word64?
      else if let some n := j.get? "zeros" then n.nat?.map (List.replicate · 0)
      else j.field "concat" Json.items? >>= joinedWords? kept? depth
    match ← j.optional "take" Json.nat? with
    | none => some words
    | some n => some (words.take n)

/-- Words one after the other. -/
def joinedWords? (kept? : String → Option (List UInt64)) : Nat → List Json → Option (List UInt64)
  | _, [] => some []
  | depth, j :: rest => do
    some ((← wordsOf? kept? depth j) ++ (← joinedWords? kept? depth rest))

end

/-- Words in the caller's memory. -/
def Words.ofReport? (kept? : String → Option (List UInt64)) (j : Json) : Option Words :=
  match j.get? "null" with
  | some n => n.nat?.map .null
  | none => (wordsOf? kept? wordsDepth j).map .stored

/-- Status and text of a fault. -/
def Fault.members (f : Fault) : List (String × Json) :=
  [("status", .nat f.status.code), ("last_error", .text f.text)]

/-- The end of a call, with more to say about a fault. -/
def resultReport {α : Type} (write : α → Json) (more : List (String × Json)) :
    Except Fault α → Json
  | .ok a => .record [("status", .nat Status.ok.code), ("r", write a)]
  | .error f => .record (f.members ++ more)

end HomCircuit.Boundary
