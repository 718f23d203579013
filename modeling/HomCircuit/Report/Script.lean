import HomCircuit.Json.Access

/-!
# HomCircuit.Report.Script

Scripts: requests that consist of steps, each of which does one thing to a state.

```
{"steps": [{"do": "encrypt", "message": 3, "as": "a"}, {"do": "decrypt", "ct": {"ref": "a"}}]}
```

* `Kept` — results that steps keep under names;
* `run` — the answers of all steps; a step that makes no sense is answered as such and changes
  nothing.
-/

namespace HomCircuit.Script

/-- The answer to what makes no sense. -/
def badInput : Json := .record [("error", .text "BadInput")]

/-- The answer to what has no answer. -/
def panicked : Json := .record [("error", .text "panic")]

/-- The report of a result or of an error. -/
def except {ε α : Type} (bad : ε → Json) (good : α → Json) : Except ε α → Json
  | .ok a => good a
  | .error e => bad e

/-! ## names -/

/-- Results under names, the latest first. -/
abbrev Kept (α : Type) := List (String × α)

/-- Keeps a result, in place of another one of that name. -/
def put {α : Type} (kept : Kept α) (name : String) (a : α) : Kept α :=
  (name, a) :: kept.filter (·.1 ≠ name)

/-- Keeps a result under the name that a member gives, if it gives one. -/
def keepAs {α : Type} (key : String) (j : Json) (kept : Kept α) (a : α) : Option (Kept α) := do
  match ← j.optional key Json.text? with
  | none => some kept
  | some n => some (put kept n a)

/-- Keeps a result under the name that a step gives, if it gives one. -/
def keep {α : Type} (j : Json) (kept : Kept α) (a : α) : Option (Kept α) := keepAs "as" j kept a

/-- The result under a name. -/
def find? {α : Type} (kept : Kept α) (name : String) : Option α := kept.lookup name

/-- The result under the name that a member gives. -/
def named? {α : Type} (kept : Kept α) (j : Json) (key : String) : Option α :=
  j.field key Json.text? >>= find? kept

/-- The result under the name that a member gives, if there is that member. -/
def namedIf? {α : Type} (kept : Kept α) (j : Json) (key : String) : Option (Option α) :=
  j.optional key fun n => n.text? >>= find? kept

/-! ## steps -/

/-- What a step does: its answer and the state after it, unless it makes no sense. -/
abbrev Action (σ : Type) := σ → String → Json → Option (Json × σ)

/-- The answers of steps in order. -/
def run {σ : Type} (act : Action σ) : σ → List Json → List Json
  | _, [] => []
  | s, j :: rest =>
    match j.field "do" Json.text? >>= fun name => act s name j with
    | some (answer, s) => answer :: run act s rest
    | none => badInput :: run act s rest

/-- The answers of the steps of a request, as a member. -/
def steps {σ : Type} (j : Json) (s : σ) (act : Action σ) : Option (String × Json) := do
  some ("steps", .array (run act s (← j.field "steps" Json.items?)))

/-- The answers of the steps of a request. -/
def stepsOnly {σ : Type} (j : Json) (s : σ) (act : Action σ) : Option Json := do
  some (.record [← steps j s act])

end HomCircuit.Script
