import HomCircuit.Schedule.Crew

/-!
# HomCircuit.Schedule.Timeline

The workers of a call on a clock in milliseconds. Only primitives take time; of all workers that can
move, the one that is due first moves, and of several the first. A worker with a node goes through
the sections of its job until primitives take time, until it has to wait, or until the job ends.

```
idle  --node-->        busy
      --no node-->     asleep until a node is settled, or until the next look
busy  --primitives-->  busy, due when they have run
      --await-->       busy, due when the state is ready
      --end-->         idle
```

* `Timeline.move` — one worker moves;
* `Timeline.advance` — workers move until none can;
* `Plan.execute` — one call from its arguments to its results.
-/

namespace HomCircuit

/-- A worker, and when it is due; one that sleeps is not. -/
structure Worker : Type 1 where
  thread : Thread
  due : Option Nat

/-- The workers of a call, its state, and the time of the latest move. -/
structure Timeline : Type 1 where
  workers : List Worker
  run : Run
  now : Nat := 0

/-- An idle worker looks again at a time, if it would not look before. -/
def Worker.rouse (time : Nat) (w : Worker) : Worker :=
  match w.thread with
  | .idle => { w with due := some (w.due.elim time (min time)) }
  | _ => w

namespace Timeline

/-- A worker that sleeps looks again after this time at the latest. -/
def pollInterval : Nat := 20

/-- When a worker moves next, if it can. One that had to wait moves as soon as it can. -/
def moment? (t : Timeline) (w : Worker) : Option Nat :=
  if w.thread.isReady t.run then w.due.map (max t.now) else none

/-- The worker that moves next: the time, its place, and the worker. -/
def foremost? (t : Timeline) : Option (Nat × Nat × Worker) :=
  t.workers.zipIdx.foldl
    (fun best (w, k) =>
      match t.moment? w, best with
      | none, _ => best
      | some time, none => some (time, k, w)
      | some time, some (earliest, _, _) => if time < earliest then some (time, k, w) else best)
    none

/-- A worker has moved. -/
def update (t : Timeline) (k : Nat) (w : Worker) (run : Run) : Timeline :=
  { t with workers := t.workers.set k w, run }

/-- Idle workers look again at a time. -/
def rouse (t : Timeline) (time : Nat) : Timeline :=
  { t with workers := t.workers.map (Worker.rouse time) }

variable (e : Environment) (p : Plan)

/-- The sections of a job up to where primitives take time, the job has to wait, or it ends: how long
the primitives take, what is left of the job, and the state. -/
def stretch : Job Run Unit → Run → Nat × Job Run Unit × Run
  | .done (), r => (0, .done (), r)
  | .step act next, r => stretch (next (act r).1) (act r).2
  | .await ready next, r => if ready r then stretch next r else (0, .await ready next, r)
  | .announce calls next, r =>
    let r := r.announce e calls
    match e.duration calls with
    | 0 => stretch next r
    | pause => (pause, next, r)

/-- One worker moves at a time. The others look for nodes at once if one was settled or the worker
is gone; if primitives were called, they look a little later, since the call may be cancelled. -/
def move (t : Timeline) (time k : Nat) (w : Worker) : Timeline :=
  let t := { t with now := time }
  match w.thread with
  | .gone => t
  | .busy i job =>
    match stretch e job t.run with
    | (_, .done (), run) => (t.update k ⟨.idle, some time⟩ run).rouse time
    | (pause, rest, run) =>
      (t.update k ⟨.busy i rest, some (time + pause)⟩ run).rouse (time + pollInterval)
  | .idle =>
    match t.run.next e p with
    | (.start i, run) => t.update k ⟨.busy i (nodeJob e p i), some time⟩ run
    | (.wait, run) => t.update k ⟨.idle, none⟩ run
    | (.stop, run) => (t.update k ⟨.gone, none⟩ run).rouse time

/-- Workers move until none can, at most so many times. -/
def advance : Nat → Timeline → Timeline
  | 0, t => t
  | fuel + 1, t =>
    match t.foremost? with
    | none => t
    | some (time, k, w) => advance fuel (t.move e p time k w)

/-- More moves than workers can make: a node starts once, stops on its way at most twice and ends
once, a worker goes once, and each worker looks at most once in vain before the first of these moves
and after each of them. -/
def bound (nodes workers : Nat) : Nat := (4 * nodes + workers + 1) * (workers + 1)

end Timeline

/-- One call: arguments are put in place, nodes run if that succeeded, and the results are
collected. -/
def Plan.execute (p : Plan) (e : Environment) (workers : Nat) (supplied : List (ValueId × Value))
    (resources : Resources) : Except RunError (List (ValueId × Value)) × Trace × Resources :=
  let (bound, run) :=
    Run.bind e p supplied p.graph.arguments.toList (Run.initial p resources)
  let crew := min (max workers 1) run.dispatch.remaining
  let run :=
    if bound.isOk then
      let start : Timeline := { workers := List.replicate crew ⟨.idle, some 0⟩, run }
      (start.advance e p (Timeline.bound p.graph.size crew)).run
    else run
  run.finish p bound

end HomCircuit
