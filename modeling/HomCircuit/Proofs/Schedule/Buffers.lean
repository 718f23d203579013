import HomCircuit.Proofs.Schedule.Chronicle
import HomCircuit.Proofs.Schedule.Evaluation

/-!
# HomCircuit.Proofs.Schedule.Buffers

Every buffer of a call lives as long as somebody is going to read it, and no longer.

```
put in its slot  →  … reads …  →  last read: dropped            called well: nothing is left at the end
```

* `Run.next_start` — all that a started node tells of the state;
* `Chronicle.Valid.finish` — no answer of a call blames the graph, and one with values leaves nothing;
* `Graph.buffers_last` — the law for graphs, on any backend, in every interleaving.
-/

namespace HomCircuit

section Calls

variable {e : Environment} {p : Plan} {begun : Run} {c : Chronicle}

/-- A worker is given a candidate, in a call that is well. -/
theorem Run.next_start {r r' : Run} {i : Nat} (told : r.next e p = (.start i, r')) :
    ∃ d', r.dispatch.failure = none ∧ r.dispatch.candidate? p = some (i, d') ∧
      r' = { r with
        dispatch := { d' with started := i :: d'.started, running := d'.running + 1 }
        trace := r.trace.start (p.graph.node i).id } := by
  simp only [Run.next] at told
  generalize r.resources.cancellation.isCancelled e.token = cancelled at told
  rcases Dispatch.next_cases p r.dispatch cancelled with
    ⟨stop, -⟩ | ⟨healthy, -, ⟨j, d', found, start⟩ | ⟨-, wait⟩⟩
  · simp [stop] at told
  · rw [start] at told
    obtain ⟨same, rfl⟩ := Prod.mk.inj told
    obtain rfl := Turn.start.inj same
    exact ⟨d', healthy, found, rfl⟩
  · simp [wait] at told

/-- What made a call fail is a cancellation, or the error of a node. -/
theorem History.sparesGraph_failure? {es : History}
    (spares : ∀ s ∈ es.settled, ∀ err, s.2.result = .error err → err.SparesGraph) {f : Failure}
    (failed : es.failure? = some f) : f.error.SparesGraph := by
  obtain ⟨ev, mem, failed⟩ := List.exists_of_findSome?_eq_some failed
  cases ev with
  | settled i done =>
      have settled : (i, done) ∈ es.settled := List.mem_filterMap.mpr ⟨_, mem, rfl⟩
      cases result : done.result with
      | ok b => simp [Event.failure?, result] at failed
      | error err =>
          simp only [Event.failure?, result, Option.some.injEq] at failed
          subst failed
          exact spares _ settled err result
  | cancelled =>
      simp only [Event.failure?, Option.some.injEq] at failed
      subst failed
      simp [RunError.SparesGraph, RunError.rootCause]
  | _ => simp [Event.failure?] at failed

/-- When a call has nothing left to do, what was asked for is collected one by one, and what has been
collected is no longer there. -/
theorem Course.collect_requested (sound : p.Sound) (h : begun.Begun p) {r : Run} {es : History}
    (course : Course p begun r es [] []) (none_ : r.dispatch.remaining = 0)
    {first rest : List (ValueId × Nat)} (split : p.requested = first ++ rest) :
    Settles
      (fun _ => ∀ slot, ((Run.collect first r).2.arena.get? slot).isSome = true ↔
        slot ∈ rest.map (·.2))
      RunError.SparesGraph (Run.collect first r).1 := by
  have holds := course.holds_requested sound h none_
  have distinct := sound.distinct
  simp only [Plan.requestedSlots, split, List.map_append] at holds distinct
  obtain ⟨first', -, apart⟩ := List.nodup_append'.mp distinct
  have collected := Run.collect_spec (r := r) first' fun slot mem =>
    (holds slot).mpr (List.mem_append_left _ mem)
  refine collected.mono (fun _ left slot => ?_) fun _ => id
  rw [left]
  by_cases gone : slot ∈ first.map (·.2)
  · simp only [if_pos gone, Option.isSome_none, Bool.false_eq_true, false_iff]
    exact apart gone
  · rw [if_neg gone, holds, List.mem_append, or_iff_right gone]

/-- When all workers are gone, the answer does not blame the graph, and if there are values, no buffer is
left. -/
theorem Chronicle.Valid.finish (sound : p.Sound) (h : begun.Begun p) (v : c.Valid p begun)
    (gone : (c.crew p).allGone = true) (past : c.run.Over) :
    Settles (fun _ => (Run.collect p.requested c.run).2.arena.clear.1 = []) RunError.SparesGraph
      (c.run.finish p (.ok ())).1 := by
  obtain ⟨course, -⟩ := v.finished gone
  obtain ⟨posts, m⟩ := v
  simp only [Run.finish]
  cases failed : c.run.dispatch.failure with
  | some f =>
      refine History.sparesGraph_failure? m.spares ?_
      rw [← (course.accounts sound h.toFresh).failure, failed]
  | none =>
      have none_ := past.resolve_left fun ill => ill failed
      refine (course.collect_requested sound h none_ (List.append_nil _).symm).mono
        (fun _ left => ?_) fun _ => id
      rw [Arena.fst_clear]
      refine List.filterMap_eq_nil_iff.mpr fun slot _ => ?_
      simpa using left slot

end Calls

/-! ## of a graph -/

/-- In every interleaving of a call on any backend, a slot holds what was put there as long as some of its
reads, one for every edge into a live node and one for the caller, have not ended, and nothing
afterwards. So a node that starts finds all its inputs, and keeps them while it runs; no error tells of a
value that was missing; and when the call answers values, no buffer is left. -/
theorem Graph.buffers_last {nodes : List Node} {arguments : List (ValueId × PartitionId)} {g : Graph}
    (built : Graph.build nodes arguments = .ok g) {o : CallOptions} {accelerating : Bool} {p : Plan}
    (prepared : Plan.prepare g o accelerating = .ok p) {e : Environment}
    {supplied : List (ValueId × Value)} {resources : Resources} {run : Run}
    (bound : Run.bind e p supplied g.arguments.toList (Run.initial p resources) = (.ok (), run))
    (workers : Nat) (ms : List Move) :
    let c := p.chronicle e run workers ms
    -- what follows is told of the workers of the call, wherever they have come to
    c.crew p = (Plan.crew run workers).moves e p ms ∧
    -- reads have ended, or are left to live nodes, to workers, and to the caller
    (∀ slot, p.consumers slot = c.history.released slot +
      (p.readsLeft c.run.dispatch.started (c.stations.flatMap (Station.owed g))).count slot) ∧
    -- while some are left, and no longer, a slot holds what was put there
    (∀ slot, c.run.arena.get? slot =
      if c.history.released slot < p.consumers slot then c.history.stored? p run slot else none) ∧
    (∀ slot < g.arguments.size, p.consumers slot ≠ 0 → (c.history.stored? p run slot).isSome = true) ∧
    (∀ i done b, i < g.size → .settled i done ∈ c.history.before → done.result = .ok b →
      c.history.stored? p run (g.outputSlot i) = some b) ∧
    -- a node that starts finds its inputs, and keeps them while it runs
    (∀ i run', c.run.next e p = (.start i, run') →
      ∀ slot ∈ g.inputsOf i, (run'.arena.get? slot).isSome = true) ∧
    (∀ i job, .performing i job ∈ c.stations →
      ∀ slot ∈ g.inputsOf i, (c.run.arena.get? slot).isSome = true) ∧
    -- no node fails because a value was missing
    (∀ i done err, .settled i done ∈ c.history → done.result = .error err → err.SparesGraph) ∧
    -- at the end, requested values are there until they are collected, and then nothing is left
    ((c.crew p).allGone = true →
      (c.run.dispatch.failure = none → ∀ first rest, p.requested = first ++ rest →
        Settles
          (fun _ => ∀ slot, ((Run.collect first c.run).2.arena.get? slot).isSome = true ↔
            slot ∈ rest.map (·.2))
          RunError.SparesGraph (Run.collect first c.run).1) ∧
      Settles (fun _ => (Run.collect p.requested c.run).2.arena.clear.1 = []) RunError.SparesGraph
        (c.run.finish p (.ok ())).1) := by
  have w := wired_of_build built
  obtain ⟨sound, rfl, -⟩ := Plan.sound_of_prepare w prepared
  obtain ⟨begun, -⟩ := Run.begun_of_bind sound bound
  intro c
  have valid : c.Valid p run := Plan.valid_chronicle sound begun workers ms
  have crew : c.crew p = (Plan.crew run workers).moves e p ms := p.crew_chronicle e run workers ms
  obtain ⟨posts, m⟩ := valid
  have shelves := m.course.shelves sound begun
  have accounts := m.course.accounts sound begun.toFresh
  refine ⟨crew, shelves.reads, shelves.found, fun slot inside read => ?_, fun i done b inside settled ok => ?_,
    fun i run' told => ?_, fun i job mem => ?_, fun i done err settled failed => ?_, fun gone => ?_⟩
  · exact History.stored?_isSome sound begun accounts.kept_live (.inl inside) read
  · unfold History.stored?
    rw [Graph.producer?_outputSlot inside]
    refine (KeyCache.lookup_eq_some_iff_mem accounts.nodup_kept).mpr ?_
    refine List.mem_filterMap.mpr ⟨(i, done), List.mem_filterMap.mpr ⟨_, settled, rfl⟩, ?_⟩
    simp [ok, Except.toOption]
  · obtain ⟨d', healthy, found, rfl⟩ := Run.next_start told
    exact (m.course.start healthy found).furnished sound begun List.mem_cons_self
      fun slot read => List.mem_append_left _ read
  · obtain ⟨hands, owed, course, held, reads⟩ := Chronicle.Valid.performing ⟨posts, m⟩ mem
    exact course.furnished sound begun held reads
  · exact m.spares _ (List.mem_filterMap.mpr ⟨_, settled, rfl⟩) err failed
  · have past : c.run.Over := Plan.over_chronicle sound bound gone
    refine ⟨fun healthy first rest split => ?_, Chronicle.Valid.finish sound begun ⟨posts, m⟩ gone past⟩
    have course := (Chronicle.Valid.finished ⟨posts, m⟩ gone).1
    exact course.collect_requested sound begun (past.resolve_left fun ill => ill healthy) split

namespace Collision.Additions

/-- One worker that adds and negates finds all inputs at every start, and when it is gone the results
are collected and nothing is left. -/
theorem buffers_last_fresh :
    Run.bind environment plan supplied graph.arguments.toList (Run.initial plan fresh) =
        (.ok (), begun fresh) ∧
      (∀ ms i run', (plan.chronicle environment (begun fresh) 1 ms).run.next environment plan =
          (.start i, run') → ∀ slot ∈ graph.inputsOf i, (run'.arena.get? slot).isSome = true) ∧
      (ended fresh).allGone = true ∧ (answer fresh).1.isOk = true ∧
      (Run.collect plan.requested (ended fresh).run).2.arena.clear.1 = [] := by
  obtain ⟨accepted, gone, ok, -⟩ := succeeds_fresh
  have ends (ms : List Move) (c : Crew)
      (reached : (Plan.crew (begun fresh) 1).moves environment plan ms = c)
      (gone : c.allGone = true) (ok : (c.run.finish plan (.ok ())).1.isOk = true) :
      (Run.collect plan.requested c.run).2.arena.clear.1 = [] := by
    obtain ⟨crew, -, -, -, -, -, -, -, ends⟩ :=
      Graph.buffers_last built prepared (bound accepted) 1 ms
    obtain rfl := crew.trans reached
    have settles := (ends gone).2
    rw [Chronicle.crew] at ok
    rw [Except.eq_ok_of_isOk ok] at settles
    exact settles
  refine ⟨bound accepted, fun ms i run' told => ?_, gone, ok, ends _ _ rfl gone ok⟩
  obtain ⟨-, -, -, -, -, starts, -⟩ := Graph.buffers_last built prepared (bound accepted) 1 ms
  exact starts i run' told

end Collision.Additions

end HomCircuit
