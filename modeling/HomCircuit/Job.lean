import HomCircuit.Backend.Outcome

/-!
# HomCircuit.Job

A job is a program in sections. Each section reads and changes a shared state at once; between two
sections of one job, other jobs may change the state. A job may also wait until the state allows it
to go on, and announce that it calls primitives, which takes time.

```
section s₁ → await c → section s₂ → announce calls → section s₃ → done a
```

* `Job.run` — all sections in a row, with nothing in between;
* `Job.within` — a job on a part of a larger state.
-/

namespace HomCircuit

/-- A program in sections over a state, with a result. -/
inductive Job (σ α : Type) : Type 1
  | done (a : α)
  /-- One section: it changes the state at once, and what it yields decides how the job goes on. -/
  | step {β : Type} (act : σ → β × σ) (next : β → Job σ α)
  /-- The job goes on once the state is ready. -/
  | await (ready : σ → Bool) (next : Job σ α)
  /-- Primitives are called, one after the other. -/
  | announce (calls : List PrimitiveCall) (next : Job σ α)

namespace Job

variable {σ τ α β : Type}

/-- One job after another. -/
def bind : Job σ α → (α → Job σ β) → Job σ β
  | done a, k => k a
  | step act next, k => .step act fun b => (next b).bind k
  | await ready next, k => .await ready (next.bind k)
  | announce calls next, k => .announce calls (next.bind k)

instance : Monad (Job σ) where
  pure := done
  bind := bind

/-- A job of one section. -/
def atomic (act : σ → α × σ) : Job σ α := step act done

/-- A section that only looks. -/
def look (f : σ → α) : Job σ α := atomic fun s => (f s, s)

/-- A section that only changes the state. -/
def change (f : σ → σ) : Job σ Unit := atomic fun s => ((), f s)

/-- Waits until the state is ready. -/
def wait (ready : σ → Bool) : Job σ Unit := .await ready (.done ())

/-- Announces calls of primitives. -/
def tell (calls : List PrimitiveCall) : Job σ Unit := .announce calls (.done ())

/-- All sections in a row. Nobody else could make the state ready, so the job does not wait. -/
def run : Job σ α → σ → α × σ
  | done a, s => (a, s)
  | step act next, s =>
    let r := act s
    (next r.1).run r.2
  | await _ next, s => next.run s
  | announce _ next, s => next.run s

/-- A job on a part of a larger state. -/
def within (get : τ → σ) (set : σ → τ → τ) : Job σ α → Job τ α
  | done a => .done a
  | step act next =>
    .step (fun t => let r := act (get t); (r.1, set r.2 t)) fun b => (next b).within get set
  | await ready next => .await (fun t => ready (get t)) (next.within get set)
  | announce calls next => .announce calls (next.within get set)

end Job

end HomCircuit
