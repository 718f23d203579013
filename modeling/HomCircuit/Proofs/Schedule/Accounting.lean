import HomCircuit.Proofs.Schedule.Buffers
import HomCircuit.Proofs.Schedule.StartOrder

/-!
# HomCircuit.Proofs.Schedule.Accounting

Every node of a call is accounted for.

```
all nodes   =  live + elided             live  =  completed and kept + remaining
live        =  started + skipped         settled  =  kept + lost
started     =  settled + in hand         completed  =  kept + discarded
```

* `History.settled_nodes`, `Run.Accounts.started_perm` — settled nodes and those in hand have started;
* `Run.Accounts.remaining` — what remains are the live nodes without a result that was kept;
* `Graph.never_stuck` — while nodes remain, one of them can start;
* `Answer.Accounts` — what an answer accounts for, and `Run.Accounts.answers`, that it does;
* `Graph.trace_accounts` — the trace of a call, in every interleaving and in every answer;
* `Plan.cancelled_of_finish` — a call that tells of a cancellation was cancelled at some moment.
-/

namespace HomCircuit

/-! ## settled nodes -/

namespace History

variable {es : History} {i : Nat}

theorem failure?_before (es : History) : es.before.failure? = none := by
  rw [failure?_eq_none_iff]
  intro ev mem
  simpa using List.mem_takeWhile_imp mem

/-- As long as nothing has failed, all settled nodes gave results. -/
theorem completed_of_healthy (healthy : es.failure? = none) :
    es.completed = es.settled.map Prod.fst := by
  have harmless := failure?_eq_none_iff.mp healthy
  have ok : ∀ s ∈ es.settled, ∃ b, s.2.result = .ok b := by
    rintro ⟨j, done⟩ mem
    obtain ⟨ev, happened, settlement⟩ := List.mem_filterMap.mp mem
    cases ev with
    | settled k done' =>
        obtain ⟨rfl, rfl⟩ := Prod.mk.inj (Option.some.inj settlement)
        have quiet := harmless _ happened
        cases result : done'.result with
        | ok b => exact ⟨b, rfl⟩
        | error err => simp [Event.failure?, result] at quiet
    | _ => contradiction
  rw [completed, results, List.map_filterMap, ← List.filterMap_eq_map]
  refine List.filterMap_congr fun s mem => ?_
  obtain ⟨b, result⟩ := ok s mem
  simp [result, Except.toOption]

/-- Settled nodes are kept as long as nothing has failed, and lost from then on. -/
theorem settled_nodes (es : History) : es.settled.map Prod.fst = es.kept ++ es.lost := by
  have split : es.settled = es.before.settled ++ es.after.settled := by
    rw [← settled_append, before_append_after]
  rw [split, List.map_append, kept, completed_of_healthy es.failure?_before, lost]

/-- Nodes that gave a result are settled. -/
theorem completed_sublist (es : History) : es.completed.Sublist (es.settled.map Prod.fst) := by
  rw [completed, results, List.map_filterMap]
  induction es.settled with
  | nil => exact .slnil
  | cons s rest ih =>
      cases result : s.2.result with
      | ok b => simpa [result, Except.toOption] using ih.cons_cons s.1
      | error err => simpa [result, Except.toOption] using ih.cons s.1

theorem discarded_sublist_lost (es : History) : es.discarded.Sublist es.lost :=
  completed_sublist es.after

/-- A node has completed if it was settled with a result. -/
theorem mem_completed :
    i ∈ es.completed ↔ ∃ done b, .settled i done ∈ es ∧ done.result = .ok b := by
  simp only [completed, results, settled, List.mem_map, List.mem_filterMap]
  constructor
  · rintro ⟨⟨j, b⟩, ⟨⟨k, done⟩, ⟨ev, mem, settlement⟩, result⟩, rfl⟩
    cases ev with
    | settled k' done' =>
        obtain ⟨rfl, rfl⟩ := Prod.mk.inj (Option.some.inj settlement)
        obtain ⟨b', found, same⟩ := Option.map_eq_some_iff.mp result
        obtain ⟨rfl, rfl⟩ := Prod.mk.inj same
        exact ⟨done', b', mem, Except.eq_ok_of_toOption found⟩
    | _ => contradiction
  · rintro ⟨done, b, mem, result⟩
    refine ⟨(i, b), ⟨(i, done), ⟨_, mem, rfl⟩, ?_⟩, rfl⟩
    simp [result, Except.toOption]

/-- If a node made the call fail, it is the first node that failed. -/
theorem failed?_of_failure {f : Failure} {n : NodeId} (failed : es.failure? = some f)
    (node : f.node = some n) : es.failed? = some n := by
  induction es with
  | nil => contradiction
  | cons ev rest ih =>
      cases ev with
      | settled i done =>
          cases result : done.result with
          | error err =>
              simp only [failure?, List.findSome?_cons, Event.failure?, result,
                Option.some.injEq] at failed
              subst failed
              simpa [failed?, settled, Event.settlement?, result, Except.isOk, Except.toBool] using node
          | ok b =>
              simp only [failure?, List.findSome?_cons, Event.failure?, result] at failed
              simpa [failed?, settled, Event.settlement?, result, Except.isOk, Except.toBool] using
                ih failed
      | cancelled =>
          simp only [failure?, List.findSome?_cons, Event.failure?, Option.some.injEq] at failed
          subst failed
          contradiction
      | started i => exact ih failed
      | released slot => exact ih failed

end History

/-! ## the nodes of a call -/

/-- Nodes are told apart by their numbers. -/
def Graph.Identified (g : Graph) : Prop :=
  ∀ i < g.size, ∀ j < g.size, (g.node i).id = (g.node j).id → i = j

theorem Graph.Identified.nodup {g : Graph} (own : g.Identified) :
    ((List.range g.size).map fun i => (g.node i).id).Nodup :=
  List.nodup_range.map_on fun i hi j hj same =>
    own i (List.mem_range.mp hi) j (List.mem_range.mp hj) same

theorem Graph.identified_of_build {nodes : List Node} {arguments : List (ValueId × PartitionId)}
    {g : Graph} (built : Graph.build nodes arguments = .ok g) : g.Identified :=
  fun _ hi _ hj same => node_inj_of_build built hi hj same

/-- The numbers of the live nodes, and of the others, are the numbers of all nodes. -/
theorem Plan.nodeIds_perm (p : Plan) :
    (p.nodeIds p.isLive ++ p.nodeIds fun i => !p.isLive i).Perm
      ((List.range p.graph.size).map fun i => (p.graph.node i).id) := by
  rw [Plan.nodeIds, Plan.nodeIds, ← List.map_append]
  exact (List.filter_append_perm p.isLive (List.range p.graph.size)).map _

/-- The numbers of all nodes. -/
theorem Graph.map_id_range (g : Graph) :
    ((List.range g.size).map fun i => (g.node i).id) = g.nodes.toList.map (·.id) := by
  refine List.ext_getElem (by simp [Graph.size]) fun i inside _ => ?_
  have inside' : i < g.nodes.size := by simpa [Graph.size] using inside
  simp [Graph.node, Array.getD, inside']

/-- Different live nodes, taken out of all live ones. -/
theorem Plan.filter_mem_perm {p : Plan} (sound : p.Sound) {js : List Nat} (nodup : js.Nodup)
    (live : ∀ j ∈ js, p.isLive j = true) :
    (p.liveIndices.filter fun i => decide (i ∈ js)).Perm js := by
  refine (List.perm_ext_iff_of_nodup (nodup_liveIndices.filter _) nodup).mpr fun i => ?_
  simp only [List.mem_filter, decide_eq_true_eq, and_iff_right_iff_imp]
  intro mem
  exact mem_liveIndices.mpr ⟨sound.live_lt i (live i mem), live i mem⟩

namespace Run.Accounts

variable {p : Plan} {r : Run} {es : History} {hands : List Nat} {i : Nat}

theorem nodup_started (a : r.Accounts p es hands) : es.started.Nodup := by
  rw [← a.started, List.nodup_reverse]
  exact a.standing.nodup

/-- What has started is settled, or in hand. -/
theorem started_perm (a : r.Accounts p es hands) :
    es.started.Perm (es.settled.map Prod.fst ++ hands) := by
  have split : (es.kept.reverse ++ es.lost.reverse ++ hands).Perm (es.kept ++ es.lost ++ hands) :=
    ((List.reverse_perm _).append (List.reverse_perm _)).append_right hands
  rw [← a.started, History.settled_nodes]
  exact (List.reverse_perm _).trans (a.standing.split.trans split)

theorem mem_started_iff (a : r.Accounts p es hands) : i ∈ es.started ↔ i ∈ r.dispatch.started := by
  rw [← a.started, List.mem_reverse]

theorem started_live (a : r.Accounts p es hands) (mem : i ∈ es.started) : p.isLive i = true :=
  a.standing.alive i (a.mem_started_iff.mp mem)

/-- Every settled node has one record. -/
theorem records_nodes (a : r.Accounts p es hands) :
    es.records.map (·.node) = (es.settled.map Prod.fst).map fun i => (p.graph.node i).id := by
  rw [History.records, List.map_map, List.map_map]
  exact List.map_congr_left a.named

/-- A result that was kept was not lost. -/
theorem not_lost (a : r.Accounts p es hands) (kept : i ∈ es.kept) : i ∉ es.lost := by
  have nodup := a.started_perm.nodup_iff.mp a.nodup_started
  rw [History.settled_nodes] at nodup
  exact fun lost => (List.nodup_append'.mp (List.nodup_append'.mp nodup).1).2.2 kept lost

/-- A live node is one of several that have started if its number is one of theirs. -/
theorem mem_ids_iff (sound : p.Sound) (own : p.graph.Identified) (a : r.Accounts p es hands)
    (alive : p.isLive i = true) {js : List Nat} (started : ∀ j ∈ js, j ∈ es.started) :
    (p.graph.node i).id ∈ js.map (fun j => (p.graph.node j).id) ↔ i ∈ js := by
  constructor
  · intro mem
    obtain ⟨j, mem, same⟩ := List.mem_map.mp mem
    have inside := sound.live_lt j (a.started_live (started j mem))
    rwa [← own j inside i (sound.live_lt i alive) same]
  · exact fun mem => List.mem_map.mpr ⟨i, mem, rfl⟩

/-- What has completed has started. -/
theorem started_of_completed (a : r.Accounts p es hands) (mem : i ∈ es.completed) : i ∈ es.started :=
  a.started_perm.mem_iff.mpr (List.mem_append_left _ (es.completed_sublist.mem mem))

/-- No node is settled twice. -/
theorem settled_inj (a : r.Accounts p es hands) {done done' : Performed}
    (mem : (i, done) ∈ es.settled) (mem' : (i, done') ∈ es.settled) : done = done' := by
  have nodup := (List.nodup_append.mp (a.started_perm.nodup_iff.mp a.nodup_started)).1
  exact (Prod.mk.inj (List.inj_on_of_nodup_map nodup mem mem' rfl)).2

/-- The trace lists a settled node as completed if it gave a result. -/
theorem mem_completed_iff (sound : p.Sound) (own : p.graph.Identified) (a : r.Accounts p es hands)
    {done : Performed} (mem : (i, done) ∈ es.settled) :
    (p.graph.node i).id ∈ r.trace.completed ↔ ∃ b, done.result = .ok b := by
  have started : i ∈ es.started :=
    a.started_perm.mem_iff.mpr (List.mem_append_left _ (List.mem_map.mpr ⟨_, mem, rfl⟩))
  rw [a.trace, History.trace, a.mem_ids_iff sound own (a.started_live started) fun j =>
    a.started_of_completed, History.mem_completed]
  constructor
  · rintro ⟨done', b, there, ok⟩
    exact ⟨b, a.settled_inj (History.mem_settled.mpr there) mem ▸ ok⟩
  · rintro ⟨b, ok⟩
    exact ⟨done, b, History.mem_settled.mp mem, ok⟩

/-- The results of live nodes that were kept are those of the trace that were not discarded. -/
theorem mem_kept_iff (sound : p.Sound) (own : p.graph.Identified) (a : r.Accounts p es hands)
    (alive : p.isLive i = true) :
    i ∈ es.kept ↔
      (p.graph.node i).id ∈ r.trace.completed ∧ (p.graph.node i).id ∉ r.trace.discarded := by
  have late : ∀ j ∈ es.discarded, j ∈ es.started := fun j mem =>
    a.started_of_completed (by rw [History.completed_eq]; exact List.mem_append_right _ mem)
  rw [a.trace, History.trace, a.mem_ids_iff sound own alive fun j => a.started_of_completed,
    a.mem_ids_iff sound own alive late, History.completed_eq, List.mem_append]
  constructor
  · exact fun kept => ⟨.inl kept, fun late => a.not_lost kept (es.discarded_sublist_lost.mem late)⟩
  · rintro ⟨kept | late, inTime⟩
    · exact kept
    · exact absurd late inTime

/-- What remains are the live nodes without a result that was kept. -/
theorem remaining (sound : p.Sound) (own : p.graph.Identified) (a : r.Accounts p es hands) :
    r.dispatch.remaining = ((p.nodeIds p.isLive).filter fun n =>
      decide (n ∉ r.trace.completed ∨ n ∈ r.trace.discarded)).length := by
  have same : p.liveIndices.filter ((fun n => decide (n ∉ r.trace.completed ∨
      n ∈ r.trace.discarded)) ∘ fun i => (p.graph.node i).id) =
      p.liveIndices.filter (fun i => !decide (i ∈ es.kept)) := by
    refine List.filter_congr fun i mem => ?_
    have kept := a.mem_kept_iff sound own (Plan.mem_liveIndices.mp mem).2
    simp only [Function.comp_apply, kept, ← decide_not, not_and_or, not_not]
  have kept := Plan.filter_mem_perm sound a.nodup_kept a.kept_live
  have whole := (List.filter_append_perm (fun i => decide (i ∈ es.kept)) p.liveIndices).length_eq
  have left := a.standing.remaining
  rw [List.length_append, kept.length_eq] at whole
  rw [List.length_reverse] at left
  rw [Plan.nodeIds, List.filter_map, List.length_map, show (List.range p.graph.size).filter p.isLive =
    p.liveIndices from rfl, same]
  omega

/-- Started nodes and those that never started are the live ones. -/
theorem partition (sound : p.Sound) (a : r.Accounts p es hands) :
    (r.trace.started ++ p.nodeIds fun i => p.isLive i && !r.dispatch.started.contains i).Perm
      (p.nodeIds p.isLive) := by
  have started := Plan.filter_mem_perm sound a.nodup_started fun i => a.started_live
  have others : (List.range p.graph.size).filter (fun i => p.isLive i &&
      !r.dispatch.started.contains i) = p.liveIndices.filter fun i => !decide (i ∈ es.started) := by
    rw [Plan.liveIndices, List.filter_filter]
    refine List.filter_congr fun i _ => ?_
    simp only [a.mem_started_iff, List.contains_eq_mem, Bool.and_comm]
  rw [a.trace, History.trace, Plan.nodeIds, Plan.nodeIds, others, ← List.map_append]
  exact ((started.symm.append_right _).trans (List.filter_append_perm _ _)).map _

end Run.Accounts

/-! ## no call gets stuck -/

/-- While nodes are left and no worker has one in hand, the next worker that asks starts one that has
not started before. -/
theorem Course.next_starts {p : Plan} (sound : p.Sound) (own : p.graph.Identified) {begun r : Run}
    (fresh : begun.Fresh p) {es : History} {hands owed : List Nat}
    (course : Course p begun r es hands owed) (healthy : r.dispatch.failure = none)
    (more : r.dispatch.remaining ≠ 0) (idle : r.dispatch.running = 0) {e : Environment}
    (going : r.resources.cancellation.isCancelled e.token = false) :
    ∃ i r', r.next e p = (.start i, r') ∧ i < p.graph.size ∧ p.isLive i = true ∧
      (p.graph.node i).id ∉ r.trace.started := by
  have a := course.accounts sound fresh
  obtain rfl : hands = [] := List.eq_nil_of_length_eq_zero (a.running.symm.trans idle)
  obtain ⟨i, d', found⟩ := a.standing.exists_candidate sound healthy more
  obtain ⟨alive, unstarted, -⟩ := a.standing.candidate sound found
  have inside := sound.live_lt i alive
  have told : r.dispatch.next p false =
      (.start i, { d' with started := i :: d'.started, running := d'.running + 1 }) := by
    simp [Dispatch.next, Dispatch.notice, healthy, more, found]
  refine ⟨i, _, by rw [Run.next, going, told], inside, alive, fun mem => unstarted ?_⟩
  rw [a.trace] at mem
  obtain ⟨j, old, same⟩ := List.mem_map.mp mem
  rw [← own j (sound.live_lt j (a.started_live old)) i inside same]
  exact a.mem_started_iff.mp old

/-- Wherever asking for nodes and settling them has led a call, in any order and with any results: if it
is well, nodes remain, and none is running, the next worker that asks is given a live node that has not
started before, unless the call was cancelled. What remains are the live nodes that have not completed;
a result that came after a failure does not count. -/
theorem Graph.never_stuck {nodes : List Node} {arguments : List (ValueId × PartitionId)} {g : Graph}
    (built : Graph.build nodes arguments = .ok g) {o : CallOptions} {accelerating : Bool} {p : Plan}
    (prepared : Plan.prepare g o accelerating = .ok p) {e : Environment}
    {supplied : List (ValueId × Value)} {resources : Resources} {run : Run}
    (bound : Run.bind e p supplied g.arguments.toList (Run.initial p resources) = (.ok (), run)) :
    -- this is told of all states that the workers of a call get to
    (∀ workers ms, ∃ es hands owed,
      Course p run ((Plan.crew run workers).moves e p ms).run es hands owed) ∧
    ∀ r es hands owed, Course p run r es hands owed →
      (r.dispatch.failure = none → r.dispatch.remaining ≠ 0 → r.dispatch.running = 0 →
        ∀ e' : Environment, r.resources.cancellation.isCancelled e'.token = false →
          ∃ i r', r.next e' p = (.start i, r') ∧ i < g.size ∧ p.isLive i = true ∧
            (g.node i).id ∉ r.trace.started) ∧
      (r.dispatch.failure = none → r.dispatch.remaining =
        ((p.nodeIds p.isLive).filter fun n => decide (n ∉ r.trace.completed)).length) ∧
      r.dispatch.remaining = ((p.nodeIds p.isLive).filter fun n =>
        decide (n ∉ r.trace.completed ∨ n ∈ r.trace.discarded)).length := by
  have w := wired_of_build built
  obtain ⟨sound, rfl, -⟩ := Plan.sound_of_prepare w prepared
  have own := identified_of_build built
  obtain ⟨begun, -⟩ := Run.begun_of_bind sound bound
  constructor
  · intro workers ms
    obtain ⟨posts, m⟩ := Plan.valid_chronicle (e := e) sound begun workers ms
    have same : (p.chronicle e run workers ms).run = ((Plan.crew run workers).moves e p ms).run :=
      congrArg Crew.run (p.crew_chronicle e run workers ms)
    exact ⟨_, _, _, same ▸ m.course⟩
  · intro r es hands owed course
    have a := course.accounts sound begun.toFresh
    refine ⟨fun healthy more idle e' going =>
      course.next_starts sound own begun.toFresh healthy more idle going, fun healthy => ?_,
      a.remaining sound own⟩
    have none_ : r.trace.discarded = [] := by
      rw [a.trace, History.trace, History.discarded,
        History.after_of_healthy (a.failure.symm.trans healthy)]
      rfl
    rw [a.remaining sound own, none_]
    simp

namespace Collision.Additions

/-- When one worker has settled the first node and has none in hand, it starts another one. -/
theorem never_stuck_fresh :
    let c := (Plan.crew (begun fresh) 1).moves environment plan (List.replicate 8 (.worker 0))
    c.run.dispatch.failure = none ∧ c.run.dispatch.remaining = 2 ∧ c.run.dispatch.running = 0 ∧
      ∃ i r', c.run.next environment plan = (.start i, r') ∧ i < graph.size ∧ plan.isLive i = true ∧
        (graph.node i).id ∉ c.run.trace.started := by
  obtain ⟨states, starts⟩ := Graph.never_stuck built prepared (bound succeeds_fresh.accepted)
  obtain ⟨es, hands, owed, course⟩ := states 1 (List.replicate 8 (.worker 0))
  obtain ⟨next, -, -⟩ := starts _ es hands owed course
  intro c
  have stands : c.run.dispatch.failure = none ∧ c.run.dispatch.remaining = 2 ∧
      c.run.dispatch.running = 0 ∧
      c.run.resources.cancellation.isCancelled environment.token = false := by decide +kernel
  obtain ⟨healthy, remaining, idle, going⟩ := stands
  exact ⟨healthy, remaining, idle, next healthy (by rw [remaining]; decide) idle environment going⟩

end Collision.Additions

/-! ## the trace of an answer -/

/-- What happens after a failure starts nothing. -/
theorem History.started_append_of_failed {es es' : History} (failed : es.failure? ≠ none)
    (contained : (after (es ++ es')).started = []) : started (es ++ es') = es.started := by
  obtain ⟨f, failed⟩ := Option.ne_none_iff_exists'.mp failed
  rw [(split_append_of_failed failed es').2, started, List.filterMap_append,
    List.append_eq_nil_iff] at contained
  rw [started, List.filterMap_append, contained.2, List.append_nil]
  rfl

/-- Collecting values counts no fallback. -/
theorem Run.fallbacks?_collect (rest : List (ValueId × Nat)) (r : Run) :
    (Run.collect rest r).2.resources.fallbacks? = r.resources.fallbacks? := by
  induction rest generalizing r with
  | nil => rfl
  | cons q rest ih =>
      obtain ⟨value, slot⟩ := q
      simp only [Run.collect]
      rcases r.arena.take slot with ⟨_ | b, arena⟩
      · rfl
      · have dropped := ((r.resources.toHost b).2.fallbacks?_drop [b]).trans
          (r.resources.fallbacks?_toHost b)
        dsimp only
        cases (r.resources.toHost b).1 with
        | error err => exact dropped
        | ok v => exact (ih _).trans dropped

/-- The end of a call counts no fallback. -/
theorem Run.fallbacks?_finish (p : Plan) (bound : Except RunError Unit) (r : Run) :
    (r.finish p bound).2.2.fallbacks? = r.resources.fallbacks? := by
  unfold Run.finish
  cases bound with
  | error err => exact r.resources.fallbacks?_drop _
  | ok u =>
      cases r.dispatch.failure with
      | some failure => exact r.resources.fallbacks?_drop _
      | none => exact (Resources.fallbacks?_drop _ _).trans (Run.fallbacks?_collect _ _)

/-- An error that does not tell of a call that was stopped. -/
def RunError.Plain (err : RunError) : Prop :=
  ∀ cause node skipped, err ≠ .graphCancelled cause node skipped

theorem Run.plain_collect {rest : List (ValueId × Nat)} {r : Run} {err : RunError}
    (h : (Run.collect rest r).1 = .error err) : err.Plain := by
  induction rest generalizing r with
  | nil => contradiction
  | cons q rest ih =>
      obtain ⟨value, slot⟩ := q
      simp only [Run.collect] at h
      generalize r.arena.take slot = taken at h
      obtain ⟨_ | b, arena⟩ := taken
      · obtain rfl := Except.error.inj h
        simp [RunError.Plain]
      · dsimp only at h
        cases copied : (r.resources.toHost b).1 with
        | error err' =>
            rw [copied] at h
            obtain rfl := Except.error.inj h
            obtain ⟨cause, rfl⟩ := Resources.exists_of_toHost copied
            simp [RunError.Plain]
        | ok v =>
            rw [copied] at h
            cases collected : (Run.collect rest
                { r with arena, resources := (r.resources.toHost b).2.drop [b] }).1 with
            | error err' =>
                rw [collected] at h
                obtain rfl := Except.error.inj h
                exact ih collected
            | ok values =>
                rw [collected] at h
                contradiction

theorem Run.plain_representation {mode : Mode} {value : ValueId} {q : Partition} {v : Value}
    {err : RunError} (h : Run.representation mode value q v = .error err) : err.Plain := by
  unfold Run.representation at h
  split at h
  case h_5 =>
    split at h
    · obtain rfl := Except.error.inj h
      simp [RunError.Plain]
    · contradiction
  all_goals
    first
    | contradiction
    | obtain rfl := Except.error.inj h
      simp [RunError.Plain]

theorem Run.plain_argument {e : Environment} {supplied : List (ValueId × Value)} {value : ValueId}
    {partition : PartitionId} {err : RunError}
    (h : Run.argument e supplied value partition = .error err) : err.Plain := by
  unfold Run.argument Environment.partition at h
  cases given : supplied.lookup value with
  | none =>
      rw [given] at h
      obtain rfl := Except.error.inj h
      simp [RunError.Plain]
  | some v =>
      rw [given] at h
      cases known : e.partitions.get? partition with
      | none =>
          rw [known] at h
          obtain rfl := Except.error.inj h
          simp [RunError.Plain]
      | some q =>
          rw [known] at h
          change (Run.representation e.mode value q v).map (Buffer.ofHost value partition) = _ at h
          cases represented : Run.representation e.mode value q v with
          | ok b =>
              rw [represented] at h
              contradiction
          | error err' =>
              rw [represented] at h
              obtain rfl := Except.error.inj h
              exact Run.plain_representation represented

/-- Refused arguments do not tell of a call that was stopped. -/
theorem Run.plain_bind {e : Environment} {p : Plan} {supplied : List (ValueId × Value)}
    {rest : List (ValueId × PartitionId)} {r : Run} {err : RunError}
    (h : (Run.bind e p supplied rest r).1 = .error err) : err.Plain := by
  induction rest generalizing r with
  | nil => contradiction
  | cons q rest ih =>
      obtain ⟨value, partition⟩ := q
      simp only [Run.bind] at h
      split at h
      · obtain rfl := Except.error.inj h
        simp [RunError.Plain]
      · split at h
        · exact ih h
        · split at h
          · next refused =>
            obtain rfl := Except.error.inj h
            exact Run.plain_argument refused
          · exact ih h

/-- A call tells that it was stopped for the failure that it came to. -/
theorem Run.failure_of_finish {p : Plan} {r : Run} {bound : Except RunError Unit}
    (plain : ∀ err, bound = .error err → err.Plain) {cause : RunError} {node : Option NodeId}
    {skipped : Nat} (h : (r.finish p bound).1 = .error (.graphCancelled cause node skipped)) :
    r.dispatch.failure = some ⟨cause, node⟩ ∧ skipped = (r.finish p bound).2.1.skipped.length := by
  simp only [Run.finish] at h ⊢
  cases bound with
  | error err => exact absurd (Except.error.inj h) (plain err rfl cause node skipped)
  | ok u =>
      cases failed : r.dispatch.failure with
      | none =>
          rw [failed] at h
          exact absurd rfl (Run.plain_collect h cause node skipped)
      | some f =>
          rw [failed] at h
          obtain ⟨rfl, rfl, rfl⟩ := RunError.graphCancelled.inj (Except.error.inj h)
          exact ⟨rfl, rfl⟩

/-- What an answer accounts for. -/
structure Answer.Accounts (p : Plan) (resources : Resources) (answer : Answer) : Prop where
  nodup : (answer.2.1.started ++ answer.2.1.skipped ++ answer.2.1.elided).Nodup
  live : (answer.2.1.started ++ answer.2.1.skipped).Perm (p.nodeIds p.isLive)
  all : (p.nodeIds p.isLive ++ answer.2.1.elided).Perm (p.graph.nodes.toList.map (·.id))
  records : (answer.2.1.records.map (·.node)).Perm answer.2.1.started
  completed : answer.2.1.completed.Sublist (answer.2.1.records.map (·.node))
  discarded : answer.2.1.discarded <:+ answer.2.1.completed
  fallbacks : answer.2.1.fallbacks = answer.2.1.records.countP (·.fellBack)
  /-- All fallbacks that the devices count meanwhile are those of this call. -/
  counted : ∀ n, resources.fallbacks? = some n →
    answer.2.2.fallbacks? = some (n + answer.2.1.fallbacks)
  ok : ∀ values, answer.1 = .ok values →
    answer.2.1.executed = (p.nodeIds p.isLive).length ∧ answer.2.1.skipped = [] ∧
      answer.2.1.discarded = []
  stopped : ∀ cause node skipped, answer.1 = .error (.graphCancelled cause node skipped) →
    skipped = answer.2.1.skipped.length ∧ ∀ n, node = some n → answer.2.1.failed = some n

/-- When no worker has a node in hand any more, a call can answer, and accounts for all of its nodes. -/
theorem Run.Accounts.answers {p : Plan} (sound : p.Sound) (own : p.graph.Identified) {r : Run}
    {es : History} (a : r.Accounts p es []) {resources : Resources}
    (counted : ∀ n, resources.fallbacks? = some n →
      r.resources.fallbacks? = some (n + es.records.countP (·.fellBack)))
    {bound : Except RunError Unit} (past : bound = .ok () → r.Over)
    (plain : ∀ err, bound = .error err → err.Plain) :
    Answer.Accounts p resources (r.finish p bound) := by
  obtain ⟨peakLive, told⟩ := r.trace_finish p bound
  have settled : es.started.Perm (es.settled.map Prod.fst) := by simpa using a.started_perm
  exact
    { nodup := by
        rw [told]
        exact (((a.partition sound).append_right _).trans p.nodeIds_perm).nodup_iff.mpr own.nodup
      live := by
        rw [told]
        exact a.partition sound
      all := by
        rw [told, ← p.graph.map_id_range]
        exact p.nodeIds_perm
      records := by
        rw [told, a.trace]
        exact a.records_nodes ▸ (settled.symm.map _)
      completed := by
        rw [told, a.trace]
        exact a.records_nodes ▸ es.completed_sublist.map _
      discarded := by
        rw [told, a.trace]
        simp only [History.trace, History.completed_eq, List.map_append]
        exact List.suffix_append _ _
      fallbacks := by
        rw [told, a.trace]
        rfl
      counted := fun n before => by
        rw [Run.fallbacks?_finish, counted n before, told, a.trace]
        rfl
      ok := by
        intro values answered
        obtain ⟨rfl, healthy⟩ : bound = .ok () ∧ r.dispatch.failure = none := by
          simp only [Run.finish] at answered
          cases bound with
          | error err => contradiction
          | ok u =>
              cases failed : r.dispatch.failure with
              | some f =>
                  rw [failed] at answered
                  contradiction
              | none => exact ⟨rfl, rfl⟩
        have none_ : r.dispatch.remaining = 0 := (past rfl).resolve_left fun ill => ill healthy
        have lost : es.lost = [] := by
          rw [History.lost, History.after_of_healthy (a.failure.symm.trans healthy)]
          rfl
        have done := a.standing.all_done sound none_
        have started : ∀ i ∈ p.liveIndices, i ∈ r.dispatch.started := fun i mem =>
          a.standing.started_of_done (done.mem_iff.mpr mem)
        rw [told, a.trace]
        refine ⟨?_, ?_, ?_⟩
        · have nodes : es.settled.length = es.kept.length := by
            simpa [lost] using congrArg List.length es.settled_nodes
          have live := done.length_eq
          rw [List.length_reverse] at live
          simp only [Trace.executed, History.trace, History.records, List.length_map, Plan.nodeIds,
            nodes, live, Plan.liveIndices]
        · refine List.map_eq_nil_iff.mpr (List.filter_eq_nil_iff.mpr fun i mem => ?_)
          simp only [Bool.and_eq_true, Bool.not_eq_true', not_and, Bool.not_eq_false,
            List.contains_eq_mem, decide_eq_true_eq]
          exact fun alive => started i (Plan.mem_liveIndices.mpr ⟨List.mem_range.mp mem, alive⟩)
        · have late := es.discarded_sublist_lost
          rw [lost, List.sublist_nil] at late
          simp [History.trace, late]
      stopped := by
        intro cause node skipped answered
        obtain ⟨failed, length⟩ := Run.failure_of_finish plain answered
        refine ⟨length, fun n same => ?_⟩
        rw [told, a.trace]
        exact History.failed?_of_failure (a.failure.symm.trans failed) same }

/-- Every answer of a call accounts for its nodes. -/
theorem Plan.MayReturn.accounts {e : Environment} {p : Plan} (sound : p.Sound)
    (own : p.graph.Identified) {supplied : List (ValueId × Value)} {resources : Resources}
    {workers : Nat} {answer : Answer} (h : p.MayReturn e workers supplied resources answer) :
    answer.Accounts p resources := by
  cases h with
  | refused bound =>
      obtain ⟨fresh, same⟩ := Run.fresh_refused bound
      refine (Run.Accounts.fresh fresh).answers sound own (fun n before => ?_) (by simp) fun err same => ?_
      · rw [same, before]
        rfl
      · obtain rfl := Except.error.inj same
        exact Run.plain_bind (congrArg Prod.fst bound)
  | finished ms bound gone =>
      obtain ⟨begun, same⟩ := Run.begun_of_bind sound bound
      rw [← p.crew_chronicle] at gone ⊢
      have valid := Plan.valid_chronicle (e := e) sound begun workers ms
      obtain ⟨course, counted⟩ := valid.finished gone
      refine (course.accounts sound begun.toFresh).answers sound own (fun n before => ?_)
        (fun _ => Plan.over_chronicle sound bound gone) (by simp)
      exact counted n (same ▸ before)

/-- A call tells that it was cancelled only if its token was cancelled at some moment. -/
theorem Plan.cancelled_of_finish {e : Environment} {p : Plan} (sound : p.Sound)
    {supplied : List (ValueId × Value)} {resources : Resources} {run : Run}
    (bound : Run.bind e p supplied p.graph.arguments.toList (Run.initial p resources) =
      (.ok (), run)) {workers : Nat} {ms : List Move} {cause : RunError} {skipped : Nat}
    (h : (((Plan.crew run workers).moves e p ms).run.finish p (.ok ())).1 =
      .error (.graphCancelled cause none skipped)) :
    ∃ before, before <+: ms ∧ ((Plan.crew run workers).moves e p
      before).run.resources.cancellation.isCancelled e.token = true := by
  obtain ⟨begun, -⟩ := Run.begun_of_bind sound bound
  have same (ms : List Move) : ((Plan.crew run workers).moves e p ms).run =
      (p.chronicle e run workers ms).run := congrArg Crew.run (p.crew_chronicle e run workers ms).symm
  obtain ⟨failed, -⟩ := Run.failure_of_finish (by simp) h
  obtain ⟨posts, m⟩ := Plan.valid_chronicle (e := e) sound begun workers ms
  rw [same, (m.course.accounts sound begun.toFresh).failure] at failed
  obtain ⟨ev, mem, told⟩ := List.exists_of_findSome?_eq_some failed
  have cancelled : ev = .cancelled := by
    cases ev with
    | cancelled => rfl
    | settled i done => cases result : done.result <;> simp [Event.failure?, result] at told
    | _ => contradiction
  obtain ⟨before, early, seen⟩ := Chronicle.cancelled_of_moves List.not_mem_nil (cancelled ▸ mem)
  exact ⟨before, early, same before ▸ seen⟩

/-- The trace of a call on any backend accounts for all nodes, however its workers take turns, and
whatever fails or is cancelled: wherever an interleaving has come to, the trace that would be told lists
as started, completed and discarded what has started, given a result, and done so after the first
failure, and once the call has failed nothing starts any more; and every answer accounts for the nodes as
`Answer.Accounts` tells. -/
theorem Graph.trace_accounts {nodes : List Node} {arguments : List (ValueId × PartitionId)}
    {g : Graph} (built : Graph.build nodes arguments = .ok g) {o : CallOptions} {accelerating : Bool}
    {p : Plan} (prepared : Plan.prepare g o accelerating = .ok p) (e : Environment)
    (supplied : List (ValueId × Value)) (resources : Resources) (workers : Nat) :
    (∀ run, Run.bind e p supplied g.arguments.toList (Run.initial p resources) = (.ok (), run) →
      ∀ ms,
        let c := p.chronicle e run workers ms
        let t := (c.run.finish p (.ok ())).2.1
        c.crew p = (Plan.crew run workers).moves e p ms ∧
        t.started = c.history.started.map (fun i => (g.node i).id) ∧
        -- completed nodes are those settled with a result, and the last of them are discarded
        t.completed = c.history.completed.map (fun i => (g.node i).id) ∧
        (∀ i, i ∈ c.history.completed ↔
          ∃ done b, .settled i done ∈ c.history ∧ done.result = .ok b) ∧
        t.discarded = c.history.after.completed.map (fun i => (g.node i).id) ∧
        c.history.completed = c.history.before.completed ++ c.history.after.completed ∧
        -- after a failure nothing starts
        c.run.dispatch.failure = c.history.failure? ∧
        (c.run.dispatch.failure ≠ none → ∀ ms',
          (p.chronicle e run workers (ms ++ ms')).run.trace.started = t.started)) ∧
    ∀ answer, p.MayReturn e workers supplied resources answer → answer.Accounts p resources := by
  have w := wired_of_build built
  obtain ⟨sound, rfl, -⟩ := Plan.sound_of_prepare w prepared
  have own := identified_of_build built
  constructor
  · intro run bound ms c t
    obtain ⟨begun, -⟩ := Run.begun_of_bind sound bound
    have accounts (ms : List Move) : (p.chronicle e run workers ms).run.Accounts p
        (p.chronicle e run workers ms).history
        ((p.chronicle e run workers ms).stations.flatMap Station.hands) := by
      obtain ⟨posts, m⟩ := Plan.valid_chronicle (e := e) sound begun workers ms
      exact m.course.accounts sound begun.toFresh
    have a : c.run.Accounts p c.history (c.stations.flatMap Station.hands) := accounts ms
    obtain ⟨peakLive, told⟩ := c.run.trace_finish p (.ok ())
    have told : t = _ := told
    rw [told, a.trace]
    refine ⟨p.crew_chronicle e run workers ms, rfl, rfl, fun i => History.mem_completed, rfl,
      History.completed_eq _, a.failure, fun failed ms' => ?_⟩
    obtain ⟨later, grown⟩ := c.history_moves (e := e) (p := p) ms'
    have further := accounts (ms ++ ms')
    rw [p.chronicle_append] at further ⊢
    have contained := further.contained
    rw [show (Chronicle.moves e p (p.chronicle e run workers ms) ms').history = _ from grown]
      at contained
    rw [further.trace, History.trace, History.trace, grown,
      History.started_append_of_failed (a.failure ▸ failed) contained]
  · exact fun answer h => h.accounts sound own

namespace Collision.Additions

/-- One worker accounts for all three nodes, and if it is told of a cancellation after the first of them,
no other one starts. -/
theorem trace_accounts_fresh :
    plan.MayReturn environment 1 supplied fresh (answer fresh) ∧
      (answer fresh).Accounts plan fresh ∧ (answer fresh).2.1.executed = 3 ∧
      (let ms := List.replicate 8 (.worker 0) ++ [.raise environment.token, .worker 0]
       (plan.chronicle environment (begun fresh) 1 ms).run.dispatch.failure ≠ none ∧
        ∀ ms', (plan.chronicle environment (begun fresh) 1 (ms ++ ms')).run.trace.started =
          [⟨0⟩]) := by
  have answered := succeeds_fresh.returns
  obtain ⟨states, answers⟩ := Graph.trace_accounts built prepared environment supplied fresh 1
  refine ⟨answered, answers _ answered, by decide +kernel, ?_⟩
  intro ms
  have stopped : (plan.chronicle environment (begun fresh) 1 ms).run.dispatch.failure ≠ none ∧
      ((plan.chronicle environment (begun fresh) 1 ms).run.finish plan (.ok ())).2.1.started =
        [⟨0⟩] := by decide +kernel
  obtain ⟨failed, started⟩ := stopped
  obtain ⟨-, -, -, -, -, -, -, contained⟩ := states _ (bound succeeds_fresh.accepted) ms
  exact ⟨failed, fun ms' => (contained failed ms').trans started⟩

end Collision.Additions

end HomCircuit
