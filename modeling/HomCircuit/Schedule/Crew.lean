import HomCircuit.Schedule.Run

/-!
# HomCircuit.Schedule.Crew

All ways in which the workers of a call may take turns.

A worker that is idle asks for a node. With a node, it goes through the sections of the node's job
one by one; between them any other worker may move, and anybody may cancel the call. A worker that
waits for something stays where it is until the state is ready. A list of moves is one interleaving.

* `nodeJob` — what a worker does with a node;
* `Crew.move` — one move, `Crew.moves` — an interleaving;
* `Crew.Reachable` — the states that some interleaving leads to.
-/

namespace HomCircuit

/-- What a worker does with a node. -/
def nodeJob (e : Environment) (p : Plan) (i : Nat) : Job Run Unit := do
  let done ← perform e p i
  retire p i done

/-- What a worker is doing. -/
inductive Thread : Type 1
  | idle
  /-- Sections that are left of the job of a node. -/
  | busy (index : Nat) (job : Job Run Unit)
  | gone

/-- Whether a worker can move. -/
def Thread.isReady (run : Run) : Thread → Bool
  | .gone => false
  | .busy _ (.await ready _) => ready run
  | _ => true

/-- The workers of a call and its state. -/
structure Crew : Type 1 where
  run : Run
  threads : List Thread

/-- Who moves next: a worker, or somebody who cancels. -/
inductive Move
  | worker (k : Nat)
  | raise (t : CancelToken)
  | cancelInFlight
  deriving DecidableEq

namespace Crew

/-- Workers that are all idle. -/
def initial (run : Run) (workers : Nat) : Crew := ⟨run, List.replicate workers .idle⟩

variable (e : Environment) (p : Plan)

/-- A worker has moved. -/
def update (c : Crew) (k : Nat) (run : Run) (t : Thread) : Crew := ⟨run, c.threads.set k t⟩

/-- One section of a worker. -/
def advance (c : Crew) (k : Nat) : Thread → Crew
  | .gone => c
  | .idle =>
    match c.run.next e p with
    | (.start i, run) => c.update k run (.busy i (nodeJob e p i))
    | (.wait, run) => c.update k run .idle
    | (.stop, run) => c.update k run .gone
  | .busy _ (.done ()) => c.update k c.run .idle
  | .busy i (.step act next) => c.update k (act c.run).2 (.busy i (next (act c.run).1))
  | .busy i (.await ready next) => if ready c.run then c.update k c.run (.busy i next) else c
  | .busy i (.announce calls next) => c.update k (c.run.announce e calls) (.busy i next)

/-- Somebody cancels. -/
def cancel (c : Crew) (f : Cancellation → Cancellation) : Crew :=
  { c with run := { c.run with resources := c.run.resources.withCancellation f } }

/-- One move. -/
def move (c : Crew) : Move → Crew
  | .worker k => (c.threads[k]?).elim c (c.advance e p k)
  | .raise t => c.cancel (·.raise t)
  | .cancelInFlight => c.cancel Cancellation.advance

/-- An interleaving. -/
def moves (c : Crew) (ms : List Move) : Crew := ms.foldl (move e p) c

/-- The states that some interleaving of some workers leads to. -/
def Reachable (start : Run) (c : Crew) : Prop :=
  ∃ workers ms, c = (initial start workers).moves e p ms

/-- Whether all workers are gone. -/
def allGone (c : Crew) : Bool :=
  c.threads.all fun t =>
    match t with
    | .gone => true
    | _ => false

end Crew

end HomCircuit
