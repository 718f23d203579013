import HomCircuit.Proofs.Schedule.Clock
import HomCircuit.Proofs.Schedule.Confined
import HomCircuit.Proofs.Schedule.Course
import HomCircuit.Proofs.Schedule.Evaluation

/-!
# HomCircuit.Proofs.Schedule.StartOrder

The order in which nodes start when it is fixed.

```
started  =  the first `cursor` nodes of the dispatch order of the live nodes
```

The cursor is all that a worker takes a node from, and a node that may not start yet holds it. So
nothing that backends do, no failure and no cancellation can change the order.

* `Crew.Valid.isPrefix_started` — in every state, a prefix of the order has started;
* `Plan.MayReturn.started` — so it has in every answer, and all of it if there are values;
* `Graph.starts_in_order` — the law for graphs, on any backend.
-/

namespace HomCircuit

/-- The nodes of a graph that are live in a plan, in dispatch order. -/
def Plan.startOrder (p : Plan) : List NodeId :=
  (p.graph.dispatchOrder p.isLive).map fun i => (p.graph.node i).id

section Calls

variable {e : Environment} {p : Plan} {supplied : List (ValueId × Value)} {resources : Resources}
  {workers : Nat} {run : Run} {answer : Answer}

/-! ## in every state -/

/-- Where the order is fixed, a prefix of it has started. -/
theorem Ledger.isPrefix_started {C : Conduct e p} (sound : p.Sound)
    (fixed : p.options.deterministic = true) {shelf : List Shelved} {own : List Deposit}
    {hands owed done lost : List Nat} (l : Ledger C run shelf own hands owed done lost) :
    run.trace.started <+: p.startOrder := by
  rw [l.trace, l.standing.cursor fixed, sound.order fixed]
  exact (List.take_prefix _ _).map _

theorem Crew.Valid.isPrefix_started {C : Conduct e p} (sound : p.Sound)
    (fixed : p.options.deterministic = true) {c : Crew} (v : c.Valid C) :
    c.run.trace.started <+: p.startOrder := by
  obtain ⟨phases, shelf, done, lost, -, ledger, -, -⟩ := v
  exact ledger.isPrefix_started sound fixed

/-- However its workers have taken turns, a call has started a prefix of the order. -/
theorem Plan.isPrefix_started (sound : p.Sound) (fixed : p.options.deterministic = true)
    (bound : Run.bind e p supplied p.graph.arguments.toList (Run.initial p resources) =
      (.ok (), run)) (workers : Nat) (ms : List Move) :
    ((Plan.crew run workers).moves e p ms).run.trace.started <+: p.startOrder :=
  (Ledger.crew (C := Conduct.confined e p) sound trivial Stock.admits_confined bound workers
    ms).isPrefix_started sound fixed

/-! ## in every answer -/

theorem Run.trace_collect (rest : List (ValueId × Nat)) (r : Run) :
    (Run.collect rest r).2.trace = r.trace := by
  induction rest generalizing r with
  | nil => rfl
  | cons q rest ih =>
      obtain ⟨value, slot⟩ := q
      simp only [Run.collect]
      rcases r.arena.take slot with ⟨_ | b, arena⟩
      · rfl
      · dsimp only
        rcases r.resources.toHost b with ⟨err | v, resources⟩
        · rfl
        · exact ih _

/-- At the end, a trace is told as it stands, with the nodes that never started. -/
theorem Run.trace_finish (p : Plan) (bound : Except RunError Unit) (r : Run) :
    ∃ peakLive, (r.finish p bound).2.1 =
      { r.trace with
        skipped := p.nodeIds fun i => p.isLive i && !r.dispatch.started.contains i
        elided := p.nodeIds fun i => !p.isLive i
        peakLive } := by
  unfold Run.finish
  cases bound with
  | error err => exact ⟨_, rfl⟩
  | ok u =>
      cases r.dispatch.failure with
      | some failure => exact ⟨_, rfl⟩
      | none =>
          dsimp only
          rw [Run.trace_collect]
          exact ⟨_, rfl⟩

/-- What has started is told as it was when the last worker went. -/
theorem Run.started_finish (p : Plan) (bound : Except RunError Unit) (r : Run) :
    (r.finish p bound).2.1.started = r.trace.started := by
  obtain ⟨peakLive, told⟩ := r.trace_finish p bound
  rw [told]

/-- Binding arguments changes nothing but the arena. -/
theorem Run.bind_same (rest : List (ValueId × PartitionId)) (r : Run) :
    (Run.bind e p supplied rest r).2 =
      { r with arena := (Run.bind e p supplied rest r).2.arena } := by
  induction rest generalizing r with
  | nil => rfl
  | cons q rest ih =>
      obtain ⟨value, partition⟩ := q
      simp only [Run.bind]
      split
      · rfl
      · split
        · exact ih r
        · split
          · rfl
          · exact ih _

/-- A call whose arguments are refused has started nothing. -/
theorem Run.fresh_refused {err : RunError}
    (bound : Run.bind e p supplied p.graph.arguments.toList (Run.initial p resources) =
      (.error err, run)) : run.Fresh p ∧ run.resources = resources := by
  have same : run = { Run.initial p resources with arena := run.arena } := by
    have whole : (Run.bind e p supplied p.graph.arguments.toList (Run.initial p resources)).2 = _ :=
      Run.bind_same _ _
    rwa [bound] at whole
  rw [same]
  exact ⟨⟨rfl, rfl⟩, rfl⟩

theorem Run.started_refused {err : RunError}
    (bound : Run.bind e p supplied p.graph.arguments.toList (Run.initial p resources) =
      (.error err, run)) : (run.finish p (.error err)).2.1.started = [] := by
  rw [Run.started_finish, (Run.fresh_refused bound).1.trace]

/-- A call answers a prefix of the order as started, and all of it if it answers values. -/
theorem Plan.MayReturn.started (sound : p.Sound) (fixed : p.options.deterministic = true)
    (h : p.MayReturn e workers supplied resources answer) :
    answer.2.1.started <+: p.startOrder ∧
      (answer.1.isOk = true → answer.2.1.started = p.startOrder) := by
  cases h with
  | refused bound =>
      refine ⟨?_, nofun⟩
      rw [Run.started_refused bound]
      exact List.nil_prefix
  | finished ms bound gone =>
      refine ⟨?_, fun ok => ?_⟩
      · rw [Run.started_finish]
        exact Plan.isPrefix_started sound fixed bound workers ms
      · have keeps := (Plan.MayReturn.finished ms bound gone).conducted
          (C := Conduct.confined e p) sound trivial Stock.admits_confined bound
        obtain ⟨-, told⟩ := keeps
        cases answered : (Run.finish p (.ok ()) _).1 with
        | error err =>
            rw [answered] at ok
            contradiction
        | ok values =>
            rw [answered] at told
            rw [told.2.2 fixed, sound.order fixed]
            rfl

/-- A call by the clock has started a prefix of the order. -/
theorem Plan.execute_started (sound : p.Sound) (fixed : p.options.deterministic = true)
    (e : Environment) (workers : Nat) (supplied : List (ValueId × Value)) (resources : Resources) :
    (p.execute e workers supplied resources).2.1.started <+: p.startOrder := by
  generalize begun : Run.bind e p supplied p.graph.arguments.toList (Run.initial p resources) = r
  obtain ⟨bound, run⟩ := r
  cases bound with
  | error err =>
      rw [Plan.execute_refused begun, Run.started_refused begun]
      exact List.nil_prefix
  | ok u =>
      obtain ⟨ks, -, answer⟩ := Plan.execute_eq e p workers supplied resources begun
      rw [answer, Run.started_finish]
      exact Plan.isPrefix_started sound fixed begun workers _

end Calls

/-! ## of a graph -/

/-- Two plans that ask for the same values, and leave out alike, start the same nodes. -/
theorem Plan.startOrder_eq {g : Graph} {o o' : CallOptions} {accelerating accelerating' : Bool}
    {p p' : Plan} (h : Plan.prepare g o accelerating = .ok p)
    (h' : Plan.prepare g o' accelerating' = .ok p') (same : o'.requested = o.requested)
    (alike : o'.elide = o.elide) : p'.startOrder = p.startOrder := by
  simp only [Plan.prepare] at h h'
  rw [same, alike] at h'
  cases found : Plan.resolve g [] o.requested with
  | error err => simp [found, Except.map] at h
  | ok requested =>
      simp only [found, Except.map, Except.ok.injEq] at h h'
      rw [← h, ← h']
      rfl

/-- Where the order is fixed, the nodes of a call start in dispatch order, whatever the backend, the
number of workers, and the way in which these take turns, and even if the call fails or is cancelled.
A call that answers values has started all live nodes, so that any two of them start the same nodes in
the same order. -/
theorem Graph.starts_in_order {nodes : List Node} {arguments : List (ValueId × PartitionId)}
    {g : Graph} (built : Graph.build nodes arguments = .ok g) {o : CallOptions}
    (fixed : o.deterministic = true) {accelerating : Bool} {p : Plan}
    (prepared : Plan.prepare g o accelerating = .ok p) :
    let order := (g.dispatchOrder p.isLive).map fun i => (g.node i).id
    -- wherever an interleaving has come to
    (∀ e supplied resources run,
      Run.bind e p supplied g.arguments.toList (Run.initial p resources) = (.ok (), run) →
        ∀ workers ms, ((Plan.crew run workers).moves e p ms).run.trace.started <+: order) ∧
    -- in every answer
    (∀ e supplied resources workers answer, p.MayReturn e workers supplied resources answer →
      answer.2.1.started <+: order ∧ (answer.1.isOk = true → answer.2.1.started = order)) ∧
    -- by the clock
    (∀ e supplied resources workers,
      (p.execute e workers supplied resources).2.1.started <+: order) ∧
    -- in any two calls that answer values
    ∀ o' accelerating' p', o'.deterministic = true → o'.requested = o.requested →
      o'.elide = o.elide → Plan.prepare g o' accelerating' = .ok p' →
      ∀ e e' supplied supplied' resources resources' workers workers' answer answer',
        p.MayReturn e workers supplied resources answer →
        p'.MayReturn e' workers' supplied' resources' answer' →
        answer.1.isOk = true → answer'.1.isOk = true →
        answer.2.1.started = answer'.2.1.started := by
  have w := wired_of_build built
  obtain ⟨sound, rfl, options⟩ := Plan.sound_of_prepare w prepared
  have fixed' : p.options.deterministic = true := by rw [options, fixed]
  refine ⟨?_, ?_, ?_, ?_⟩
  · intro e supplied resources run bound workers ms
    exact Plan.isPrefix_started sound fixed' bound workers ms
  · intro e supplied resources workers answer h
    exact h.started sound fixed'
  · intro e supplied resources workers
    exact Plan.execute_started sound fixed' e workers supplied resources
  · intro o' accelerating' p' again same alike prepared' e e' supplied supplied' resources
      resources' workers workers' answer answer' h h' ok ok'
    obtain ⟨sound', -, options'⟩ := Plan.sound_of_prepare w prepared'
    have again' : p'.options.deterministic = true := by rw [options', again]
    rw [(h.started sound fixed').2 ok, (h'.started sound' again').2 ok',
      Plan.startOrder_eq prepared prepared' same alike]

namespace Collision.Additions

/-- One worker that succeeds has started all three additions in order, whatever keys were cached. -/
theorem starts_in_order_fresh :
    options.deterministic = true ∧
      plan.MayReturn environment 1 supplied fresh (answer fresh) ∧
      plan.MayReturn environment 1 supplied stale (answer stale) ∧
      (answer fresh).2.1.started =
        (graph.dispatchOrder plan.isLive).map (fun i => (graph.node i).id) ∧
      (answer fresh).2.1.started = (answer stale).2.1.started := by
  have answered := succeeds_fresh.returns
  have answered' := succeeds_stale.returns
  obtain ⟨-, answers, -, alike⟩ := Graph.starts_in_order built (o := options) rfl prepared
  exact ⟨rfl, answered, answered', (answers _ _ _ _ _ answered).2 succeeds_fresh.ok,
    alike options false plan rfl rfl rfl prepared _ _ _ _ _ _ _ _ _ _ answered answered'
      succeeds_fresh.ok succeeds_stale.ok⟩

end Collision.Additions

end HomCircuit
