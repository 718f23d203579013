import HomCircuit.Schedule.Plan

/-!
# HomCircuit.Schedule.Dispatch

The part of a call's state that decides which node starts next.

```
pending i = 0   and live   →   ready   →   started   →   completed, or failed
```

* `Dispatch.next` — one worker asks for a node: it gets one, has to wait, or is done;
* `Dispatch.succeed`, `Dispatch.discard`, `Dispatch.fail` — how a started node ends.

The first failure is kept, and nothing starts after it. A cancelled call fails when the next worker
asks.
-/

namespace HomCircuit

/-- Why a call stops, and the node that made it stop. -/
structure Failure where
  error : RunError
  node : Option NodeId
  deriving DecidableEq

/-- What decides which node starts next. -/
structure Dispatch where
  /-- Nodes that may start, in ascending order, unless the order is fixed. -/
  ready : List Nat
  /-- How many edges each node still waits for. -/
  pending : Array Nat
  /-- Started nodes, the latest first. -/
  started : List Nat := []
  /-- How much of the fixed order has started. -/
  cursor : Nat := 0
  running : Nat := 0
  /-- Live nodes that have not completed. -/
  remaining : Nat
  failure : Option Failure := none
  deriving Inhabited

/-- What a worker that asks for a node is told. -/
inductive Turn
  | start (index : Nat)
  | wait
  | stop
  deriving DecidableEq

namespace Dispatch

/-- Before anything started. -/
def initial (p : Plan) : Dispatch :=
  { ready := p.liveIndices.filter fun i => p.graph.dependencyCount i == 0
    pending := (Array.range p.graph.size).map p.graph.dependencyCount
    remaining := p.liveIndices.length }

/-- The node that may start, taken from the fixed order or from the ready nodes. -/
def candidate? (p : Plan) (d : Dispatch) : Option (Nat × Dispatch) :=
  if p.options.deterministic then
    match p.order[d.cursor]? with
    | some i => if d.pending.getD i 0 = 0 then some (i, { d with cursor := d.cursor + 1 }) else none
    | none => none
  else
    match d.ready with
    | i :: rest => some (i, { d with ready := rest })
    | [] => none

/-- A cancellation is noticed, unless the call has failed already. -/
def notice (d : Dispatch) (cancelled : Bool) : Dispatch :=
  if d.failure.isNone && cancelled then { d with failure := some ⟨.cancelled, none⟩ } else d

/-- A worker asks for a node. -/
def next (p : Plan) (d : Dispatch) (cancelled : Bool) : Turn × Dispatch :=
  let d := d.notice cancelled
  if d.failure.isSome || d.remaining == 0 then (.stop, d)
  else
    match d.candidate? p with
    | some (i, d) => (.start i, { d with started := i :: d.started, running := d.running + 1 })
    | none => (.wait, d)

/-- An edge from a completed node is resolved; the last one makes a live node ready. -/
def resolve (p : Plan) (d : Dispatch) (dependent : Nat) : Dispatch :=
  let left := d.pending.getD dependent 0 - 1
  { d with
    pending := d.pending.setIfInBounds dependent left
    ready :=
      if left = 0 ∧ p.isLive dependent ∧ ¬p.options.deterministic then
        Graph.insertAscending dependent d.ready
      else d.ready }

/-- A node gave a result that is kept. -/
def succeed (p : Plan) (d : Dispatch) (i : Nat) : Dispatch :=
  (p.graph.dependentsOf i).foldl (resolve p)
    { d with running := d.running - 1, remaining := d.remaining - 1 }

/-- A node gave a result after the call had failed. -/
def discard (d : Dispatch) : Dispatch := { d with running := d.running - 1 }

/-- A node failed. -/
def fail (d : Dispatch) (error : RunError) (node : NodeId) : Dispatch :=
  { d with running := d.running - 1, failure := d.failure <|> some ⟨error, some node⟩ }

end Dispatch

end HomCircuit
