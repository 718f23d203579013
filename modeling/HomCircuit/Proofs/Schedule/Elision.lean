import HomCircuit.Proofs.Schedule.Accounting
import HomCircuit.Proofs.Schedule.Evaluator

/-!
# HomCircuit.Proofs.Schedule.Elision

Leaving out the nodes that no requested value depends on does not change what a call answers.

```
runs with elision   =   requested values are reachable   ⊆   runs without
```

The nodes that are left read from each other, so their results are those of the whole graph. Where all
nodes succeed, these succeed.

* `Plan.isLive_iff_contributes` — with elision the live nodes are those from which a requested value is
  reachable;
* `Run.bind_iff` — when arguments are accepted; fewer reads bind fewer of them;
* `Evaluator.answers` — a call answers what its graph comes to, or why it failed;
* `Graph.elision_preserves` — the law for graphs, on the processor and on stand-ins.
-/

namespace HomCircuit

/-! ## plans -/

section Plans

variable {g : Graph} {o : CallOptions} {accelerating : Bool} {p : Plan}

/-- The live nodes of a plan. -/
theorem Plan.live_of_prepare (h : Plan.prepare g o accelerating = .ok p) :
    p.live = if o.elide then g.liveNodes p.requestedSlots else List.replicate g.size true := by
  simp only [Plan.prepare] at h
  obtain ⟨requested, -, rfl⟩ := Except.exists_of_map h
  rfl

/-- The requested slots are those of the requested values. -/
theorem Plan.Sound.mem_requestedSlots (sound : p.Sound) {slot : Nat} :
    slot ∈ p.requestedSlots ↔ ∃ v ∈ p.options.requested, p.graph.slot? v = some slot := by
  constructor
  · intro mem
    obtain ⟨q, asked, rfl⟩ := List.mem_map.mp mem
    exact ⟨q.1, sound.asked_only _ (List.mem_map.mpr ⟨q, asked, rfl⟩), sound.slots q asked⟩
  · rintro ⟨v, asked, found⟩
    obtain ⟨q, mem, rfl⟩ := List.mem_map.mp (sound.asked v asked)
    obtain rfl := Option.some.inj ((sound.slots q mem).symm.trans found)
    exact List.mem_map.mpr ⟨q, mem, rfl⟩

/-- With elision, the live nodes are those from which a requested value is reachable. -/
theorem Plan.isLive_iff_contributes (w : g.Wired) (h : Plan.prepare g o accelerating = .ok p)
    (elided : o.elide = true) {i : Nat} (inside : i < g.size) :
    p.isLive i = true ↔ g.Contributes o.requested (g.node i) := by
  obtain ⟨sound, rfl, rfl⟩ := Plan.sound_of_prepare w h
  rw [Plan.isLive_iff_marked, Plan.live_of_prepare h, if_pos elided]
  exact w.marked_liveNodes_iff (fun slot => sound.mem_requestedSlots) inside

/-- Without elision, all nodes are live. -/
theorem Plan.isLive_of_whole (h : Plan.prepare g o accelerating = .ok p) (whole : o.elide = false)
    {i : Nat} (inside : i < g.size) : p.isLive i = true := by
  rw [Plan.isLive_iff_marked, Plan.live_of_prepare h, whole]
  simp [Graph.Marked, inside]

/-- A plan with fewer live nodes keeps no slot for more reads. -/
theorem Plan.consumers_eq_zero {p' : Plan} (graph : p'.graph = p.graph)
    (requested : p'.requested = p.requested) (live : ∀ i, p'.isLive i = true → p.isLive i = true)
    {slot : Nat} (unread : p.consumers slot = 0) : p'.consumers slot = 0 := by
  rw [Plan.consumers_eq_count, List.count_eq_zero] at unread ⊢
  simp only [Plan.reads, Plan.requestedSlots, List.mem_append, List.mem_flatMap, not_or, not_exists,
    not_and] at unread ⊢
  rw [graph, requested]
  refine ⟨fun i mem => unread.1 i ?_, unread.2⟩
  obtain ⟨inside, alive⟩ := Plan.mem_liveIndices.mp mem
  exact Plan.mem_liveIndices.mpr ⟨graph ▸ inside, live i alive⟩

end Plans

/-- Arguments are accepted if all of them that somebody reads fit. -/
theorem Run.bind_iff {e : Environment} {p : Plan} {supplied : List (ValueId × Value)}
    {rest : List (ValueId × PartitionId)} {r : Run} :
    (∃ r', Run.bind e p supplied rest r = (.ok (), r')) ↔
      ∀ a ∈ rest, ∃ slot, p.graph.slot? a.1 = some slot ∧
        (p.consumers slot ≠ 0 → ∃ b, Run.argument e supplied a.1 a.2 = .ok b) := by
  induction rest generalizing r with
  | nil => simp [Run.bind]
  | cons a rest ih =>
      obtain ⟨value, partition⟩ := a
      rw [List.forall_mem_cons, Run.bind]
      cases place : p.graph.slot? value with
      | none => simp
      | some slot =>
          by_cases unread : p.consumers slot = 0
          · simp [unread, ih]
          · cases given : Run.argument e supplied value partition with
            | error err => simp [unread]
            | ok b => simp [unread, ih]

/-! ## what a call answers -/

section Calls

variable {e : Environment} {α : Type} {p : Plan} {supplied : List (ValueId × Value)}

/-- What a call without remote workers answers is what its graph comes to, or why it failed; if it
answers values, all live nodes gave results. -/
theorem Evaluator.answers (E : Evaluator e α) (sound : p.Sound) (home : p.options.assignment = [])
    {resources : Resources} (kept : E.kept resources) {run : Run}
    (bound : Run.bind e p supplied p.graph.arguments.toList (Run.initial p resources) =
      (.ok (), run)) {workers : Nat} {answer : Answer}
    (h : p.MayReturn e workers supplied resources answer) :
    (∃ values, answer.1 = .ok values ∧
        List.Forall₂ (fun q a => a.1 = q.1 ∧
          ∃ x, a.2 = E.make x ∧ E.Yields p.graph supplied q.1 x) p.requested values ∧
        ∀ i, p.isLive i = true → ∃ x, E.Yields p.graph supplied (p.graph.node i).output x) ∨
      ∃ f : Failure, ∃ skipped, answer.1 = .error (.graphCancelled f.error f.node skipped) ∧
        f.Blames p fun i => E.Fails p.graph supplied (p.graph.node i) := by
  have keeps : answer.Keeps (E.discipline sound home supplied).conduct :=
    h.keeps sound kept (E.admits sound.wired) bound
  obtain ⟨-, told⟩ := keeps
  cases result : answer.1 with
  | error err =>
      rw [result] at told
      obtain ⟨f, skipped, blames, rfl⟩ := told
      exact .inr ⟨f, skipped, rfl, blames⟩
  | ok values =>
      rw [result] at told
      obtain ⟨placed, given, -⟩ := told
      refine .inl ⟨values, rfl, ?_, fun i alive => ?_⟩
      · refine ((List.forall₂_and_left _ _).mpr ⟨sound.slots, placed⟩).imp ?_
        rintro q a ⟨slot, name, x, same, yields⟩
        rw [(Graph.valueAt_of_slot? slot).2] at yields
        exact ⟨name, x, same, yields⟩
      · obtain ⟨v, x, -, yields⟩ := given i alive
        rw [sound.wired.valueAt_output i (sound.live_lt i alive)] at yields
        exact ⟨x, yields⟩

/-- Values that tell what the same requests come to are the same. -/
theorem Evaluator.values_unique {E : Evaluator e α} {g : Graph} (w : g.Wired)
    {requested : List (ValueId × Nat)} {values values' : List (ValueId × Value)}
    (h : List.Forall₂ (fun q a => a.1 = q.1 ∧ ∃ x, a.2 = E.make x ∧ E.Yields g supplied q.1 x)
      requested values)
    (h' : List.Forall₂ (fun q a => a.1 = q.1 ∧ ∃ x, a.2 = E.make x ∧ E.Yields g supplied q.1 x)
      requested values') : values = values' := by
  induction h generalizing values' with
  | nil =>
      cases h'
      rfl
  | cons first rest ih =>
      cases h' with
      | cons first' rest' =>
          obtain ⟨name, x, made, yields⟩ := first
          obtain ⟨name', x', made', yields'⟩ := first'
          obtain rfl := yields.unique w yields'
          rw [Prod.ext (name.trans name'.symm) (made.trans made'.symm), ih rest']

/-- A later call with fewer live nodes than one that answered values accepts the arguments, can always go
on to an answer, and answers the same values, unless it was cancelled. -/
theorem Evaluator.preserves (E : Evaluator e α) {p' : Plan} (sound : p.Sound) (sound' : p'.Sound)
    (graph : p'.graph = p.graph) (requested : p'.requested = p.requested)
    (live : ∀ i, p'.isLive i = true → p.isLive i = true) (home : p.options.assignment = [])
    (home' : p'.options.assignment = []) {resources resources' : Resources}
    (kept : E.kept resources) (kept' : E.kept resources') {workers : Nat} {answer : Answer}
    (h : p.MayReturn e workers supplied resources answer) {values : List (ValueId × Value)}
    (ok : answer.1 = .ok values) (token : CancelToken) (workers' : Nat) :
    ∃ run, Run.bind { e with token } p' supplied p'.graph.arguments.toList
        (Run.initial p' resources') = (.ok (), run) ∧
      (∀ ms, ∃ ks : List Nat, p'.MayReturn { e with token } workers' supplied resources'
        (((Plan.crew run workers').moves { e with token } p' (ms ++ ks.map .worker)).run.finish p'
          (.ok ()))) ∧
      ∀ answer', p'.MayReturn { e with token } workers' supplied resources' answer' →
        answer'.1 = .ok values ∨
          ∃ skipped, answer'.1 = .error (.graphCancelled .cancelled none skipped) := by
  obtain ⟨whole, bound⟩ := h.bound_of_ok ok
  obtain ⟨run, bound'⟩ : ∃ run, Run.bind { e with token } p' supplied p'.graph.arguments.toList
      (Run.initial p' resources') = (.ok (), run) := by
    refine Run.bind_iff.mpr fun a mem => ?_
    rw [graph] at mem ⊢
    obtain ⟨slot, place, fits⟩ := Run.bind_iff.mp ⟨whole, bound⟩ a mem
    exact ⟨slot, place, fun read => fits fun unread =>
      read (Plan.consumers_eq_zero graph requested live unread)⟩
  refine ⟨run, bound', fun ms => ?_, fun answer' h' => ?_⟩
  · exact Plan.exists_answer (D := (E.withToken token).discipline sound' home' supplied) sound' kept'
      ((E.withToken token).admits sound'.wired) bound' workers' ms
  · rcases E.answers sound home kept bound h with ⟨_, eq, told, given⟩ | ⟨f, skipped, failed, -⟩
    · obtain rfl := Except.ok.inj (ok.symm.trans eq)
      rcases (E.withToken token).answers sound' home' kept' bound' h' with
        ⟨values', eq', told', -⟩ | ⟨f, skipped, failed, rfl | ⟨i, alive, fails, -⟩⟩
      · rw [graph, requested] at told'
        exact .inl (eq'.trans (congrArg Except.ok (values_unique sound.wired told' told)))
      · exact .inr ⟨skipped, failed⟩
      · rw [graph] at fails
        obtain ⟨x, yields⟩ := given i (live i alive)
        have inside := sound.live_lt i (live i alive)
        exact absurd yields (fails.not_yields sound.wired (Graph.node_mem inside))
    · rw [ok] at failed
      contradiction

end Calls

/-- The nodes that ran are live, and all live ones if there are values. -/
theorem Answer.Accounts.mem_records {p : Plan} {resources : Resources} {answer : Answer}
    (own : p.graph.Identified) (sound : p.Sound) (a : answer.Accounts p resources) {i : Nat}
    (inside : i < p.graph.size) :
    ((p.graph.node i).id ∈ answer.2.1.records.map (·.node) → p.isLive i = true) ∧
      ∀ values, answer.1 = .ok values → p.isLive i = true →
        (p.graph.node i).id ∈ answer.2.1.records.map (·.node) := by
  constructor
  · intro ran
    have listed := a.live.subset (List.mem_append_left _ (a.records.subset ran))
    obtain ⟨j, mem, same⟩ := List.mem_map.mp listed
    obtain ⟨-, alive⟩ := List.mem_filter.mp mem
    rwa [← own j (sound.live_lt j alive) i inside same]
  · intro values ok alive
    obtain ⟨-, none_, -⟩ := a.ok values ok
    have all := a.live
    rw [none_, List.append_nil] at all
    refine a.records.symm.subset (all.symm.subset (List.mem_map.mpr ⟨i, ?_, rfl⟩))
    exact List.mem_filter.mpr ⟨List.mem_range.mpr inside, alive⟩

/-! ## of a graph -/

/-- If a call without elision answers values, on stand-ins, or on the processor with a key manager that
hands out one key set for each partition, then a call with elision for the same requests, with these
arguments and keys, accepts its arguments and can always go on to an answer. In every interleaving it
answers the same values, unless its token is cancelled meanwhile. It runs no nodes but those from which a
requested value is reachable, and all of these if it answers values. -/
theorem Graph.elision_preserves {nodes : List Node} {arguments : List (ValueId × PartitionId)}
    {g : Graph} (built : Graph.build nodes arguments = .ok g) {e : Environment}
    {ring : Partition → KeySet} {resources resources' : Resources}
    (backend : e.mode = .simulation ∨ e.mode = .cpu ∧
      e.HandsOut (fun q k => k = ring q) resources ∧ e.HandsOut (fun q k => k = ring q) resources')
    {o o' : CallOptions} (whole : o.elide = false) (elided : o'.elide = true)
    (same : o'.requested = o.requested) (home : o.assignment = []) (home' : o'.assignment = [])
    {accelerating accelerating' : Bool} {p p' : Plan}
    (prepared : Plan.prepare g o accelerating = .ok p)
    (prepared' : Plan.prepare g o' accelerating' = .ok p') {supplied : List (ValueId × Value)}
    {workers : Nat} {answer : Answer} (answered : p.MayReturn e workers supplied resources answer)
    {values : List (ValueId × Value)} (ok : answer.1 = .ok values) (token : CancelToken)
    (workers' : Nat) :
    let e' := { e with token }
    ∃ run, Run.bind e' p' supplied g.arguments.toList (Run.initial p' resources') = (.ok (), run) ∧
      (∀ ms, ∃ ks : List Nat, p'.MayReturn e' workers' supplied resources'
        (((Plan.crew run workers').moves e' p' (ms ++ ks.map .worker)).run.finish p' (.ok ()))) ∧
      (∀ ms, ((Plan.crew run workers').moves e' p' ms).allGone = true →
        (∀ before, before <+: ms → ((Plan.crew run workers').moves e' p'
          before).run.resources.cancellation.isCancelled token = false) →
        (((Plan.crew run workers').moves e' p' ms).run.finish p' (.ok ())).1 = .ok values) ∧
      ∀ answer', p'.MayReturn e' workers' supplied resources' answer' →
        (answer'.1 = .ok values ∧ ∀ i < g.size,
          ((g.node i).id ∈ answer'.2.1.records.map (·.node) ↔
            g.Contributes o.requested (g.node i))) ∨
        ((∃ skipped, answer'.1 = .error (.graphCancelled .cancelled none skipped)) ∧ ∀ i < g.size,
          (g.node i).id ∈ answer'.2.1.records.map (·.node) →
            g.Contributes o.requested (g.node i)) := by
  have w := wired_of_build built
  have own := identified_of_build built
  obtain ⟨sound, rfl, rfl⟩ := Plan.sound_of_prepare w prepared
  obtain ⟨sound', graph, rfl⟩ := Plan.sound_of_prepare w prepared'
  have requested := Plan.requested_eq prepared prepared' same
  have contributes {i : Nat} (inside : i < p.graph.size) :
      p'.isLive i = true ↔ p.graph.Contributes p.options.requested (p.graph.node i) := by
    rw [← same]
    exact Plan.isLive_iff_contributes w prepared' elided inside
  have live (i : Nat) (alive : p'.isLive i = true) : p.isLive i = true :=
    Plan.isLive_of_whole prepared whole (graph ▸ sound'.live_lt i alive)
  have preserves : ∃ run, Run.bind { e with token } p' supplied p'.graph.arguments.toList
        (Run.initial p' resources') = (.ok (), run) ∧
      (∀ ms, ∃ ks : List Nat, p'.MayReturn { e with token } workers' supplied resources'
        (((Plan.crew run workers').moves { e with token } p' (ms ++ ks.map .worker)).run.finish p'
          (.ok ()))) ∧
      ∀ answer', p'.MayReturn { e with token } workers' supplied resources' answer' →
        answer'.1 = .ok values ∨
          ∃ skipped, answer'.1 = .error (.graphCancelled .cancelled none skipped) := by
    rcases backend with simulation | ⟨processor, keys, keys'⟩
    · exact (Evaluator.simulation simulation).preserves sound sound' graph requested live home home'
        trivial trivial answered ok token workers'
    · exact (Evaluator.processor processor ring).preserves sound sound' graph requested live home
        home' keys keys' answered ok token workers'
  obtain ⟨run, bound, goes, answers⟩ := preserves
  have succeeds (ms : List Move)
      (gone : ((Plan.crew run workers').moves { e with token } p' ms).allGone = true)
      (calm : ∀ before, before <+: ms → ((Plan.crew run workers').moves { e with token } p'
        before).run.resources.cancellation.isCancelled token = false) :
      (((Plan.crew run workers').moves { e with token } p' ms).run.finish p' (.ok ())).1 =
        .ok values := by
    refine (answers _ (.finished ms bound gone)).resolve_right fun ⟨skipped, stopped⟩ => ?_
    obtain ⟨before, early, cancelled⟩ := Plan.cancelled_of_finish sound' bound stopped
    exact Bool.false_ne_true ((calm before early).symm.trans cancelled)
  rw [graph] at bound
  refine ⟨run, bound, goes, succeeds, fun answer' answered' => ?_⟩
  have accounts := answered'.accounts sound' (graph ▸ own)
  have ran {i : Nat} (inside : i < p.graph.size) :=
    accounts.mem_records (graph ▸ own) sound' (graph ▸ inside)
  rw [graph] at ran
  rcases answers answer' answered' with ok' | stopped
  · refine .inl ⟨ok', fun i inside => ?_⟩
    rw [← contributes inside]
    exact ⟨(ran inside).1, (ran inside).2 values ok'⟩
  · exact .inr ⟨stopped, fun i inside mem => (contributes inside).mp ((ran inside).1 mem)⟩

namespace Collision.Additions

/-- The last addition alone is asked for. -/
def lastOptions (elide : Bool) : CallOptions :=
  { requested := [⟨12⟩], deterministic := true, elide }

def lastPlan (elide : Bool) : Plan :=
  { graph
    options := lastOptions elide
    requested := [(⟨12⟩, 4)]
    live := [!elide, !elide, true]
    order := graph.dispatchOrder fun i => [!elide, !elide, true].getD i false
    accelerating := false }

/-- Whether the arguments were accepted, and the call with its arguments in place. -/
def lastBegun (elide : Bool) (resources : Resources) : Except RunError Unit × Run :=
  Run.bind environment (lastPlan elide) supplied graph.arguments.toList
    (Run.initial (lastPlan elide) resources)

/-- One worker has done everything. -/
def lastEnded (elide : Bool) (resources : Resources) : Crew :=
  (Plan.crew (lastBegun elide resources).2 1).moves environment (lastPlan elide)
    (List.replicate 60 (.worker 0))

/-- What the call answers. -/
def lastAnswer (elide : Bool) (resources : Resources) : Answer :=
  (lastEnded elide resources).run.finish (lastPlan elide) (.ok ())

/-- No node feeds the last addition. -/
theorem liveNodes_last : graph.liveNodes [4] = [false, false, true] := by
  have stack : [4].filterMap graph.producer? = [2] := by decide +kernel
  have producers : graph.producersOf 2 = [] := by decide +kernel
  have size : graph.size = 3 := rfl
  rw [Graph.liveNodes, stack, size, Graph.markFrom, if_pos (by rfl), producers, List.nil_append,
    Graph.markFrom]
  rfl

theorem last_prepared (elide : Bool) :
    Plan.prepare graph (lastOptions elide) false = .ok (lastPlan elide) := by
  have found : graph.slot? ⟨12⟩ = some 4 := by decide +kernel
  have size : graph.size = 3 := rfl
  have live : (if elide then graph.liveNodes [4] else List.replicate graph.size true) =
      [!elide, !elide, true] := by
    cases elide
    · rw [size]
      rfl
    · exact liveNodes_last
  simp [Plan.prepare, lastPlan, lastOptions, Plan.resolve, found, Except.map, live]

theorem last_returns {elide : Bool} {resources : Resources}
    (accepted : (lastBegun elide resources).1.isOk = true)
    (gone : (lastEnded elide resources).allGone = true) :
    (lastPlan elide).MayReturn environment 1 supplied resources (lastAnswer elide resources) := by
  have same : (lastPlan elide).graph = graph :=
    (Plan.sound_of_prepare (Graph.wired_of_build built) (last_prepared elide)).2.1
  refine .finished _ ?_ gone
  rw [same]
  exact Prod.ext (Except.eq_ok_of_isOk accepted) rfl

/-- With a fresh key manager, the last addition comes to the same with elision and without, and with it
nothing else runs. -/
theorem elision_preserves_fresh :
    environment.HandsOut (fun q k => k = KeySet.ofSeed q {}) fresh ∧
      (lastPlan false).MayReturn environment 1 supplied fresh (lastAnswer false fresh) ∧
      (lastPlan true).MayReturn environment 1 supplied fresh (lastAnswer true fresh) ∧
      (lastAnswer true fresh).1.isOk = true ∧
      (lastAnswer true fresh).1 = (lastAnswer false fresh).1 ∧
      ∀ i < graph.size, ((graph.node i).id ∈ (lastAnswer true fresh).2.1.records.map (·.node) ↔
        graph.Contributes [⟨12⟩] (graph.node i)) := by
  have succeeds : ∀ elide, (lastBegun elide fresh).1.isOk = true ∧
      (lastEnded elide fresh).allGone = true ∧ (lastAnswer elide fresh).1.isOk = true := by
    decide +kernel
  obtain ⟨accepted, gone, ok⟩ := succeeds false
  obtain ⟨accepted', gone', ok'⟩ := succeeds true
  have whole := last_returns accepted gone
  have elided := last_returns accepted' gone'
  obtain ⟨-, -, -, -, answers⟩ := Graph.elision_preserves built
    (.inr ⟨rfl, handsOut_fresh, handsOut_fresh⟩)
    (show (lastOptions false).elide = false from rfl) (show (lastOptions true).elide = true from rfl)
    rfl rfl rfl (last_prepared false) (last_prepared true) whole (Except.eq_ok_of_isOk ok)
    environment.token 1
  rcases answers _ elided with ⟨same, ran⟩ | ⟨⟨skipped, stopped⟩, -⟩
  · exact ⟨handsOut_fresh, whole, elided, ok', same.trans (Except.eq_ok_of_isOk ok).symm, ran⟩
  · rw [stopped] at ok'
    exact absurd ok' Bool.false_ne_true

/-- With the keys of a colliding partition in its cache, the key manager hands these out for the last
addition when it runs alone, and fresh keys when the negation before it has evicted them: elision changes
the ciphertext. -/
theorem stale_keys_elided :
    Graph.build nodes arguments = .ok graph ∧
      Plan.prepare graph (lastOptions false) false = .ok (lastPlan false) ∧
      Plan.prepare graph (lastOptions true) false = .ok (lastPlan true) ∧
      (lastPlan false).MayReturn environment 1 supplied stale (lastAnswer false stale) ∧
      (lastPlan true).MayReturn environment 1 supplied stale (lastAnswer true stale) ∧
      (lastAnswer false stale).1.isOk = true ∧
      (lastAnswer true stale).1 ≠ (lastAnswer false stale).1 := by
  have succeeds : ∀ elide, (lastBegun elide stale).1.isOk = true ∧
      (lastEnded elide stale).allGone = true ∧ (lastAnswer elide stale).1.isOk = true ∧
      ciphertexts (lastAnswer elide stale) = some [(⟨12⟩,
        some [0, 0, 0, 0, if elide then 0x2800000000000000 else 0x2000000000000000])] := by
    decide +kernel
  obtain ⟨accepted, gone, ok, whole⟩ := succeeds false
  obtain ⟨accepted', gone', -, elided⟩ := succeeds true
  refine ⟨built, last_prepared false, last_prepared true, last_returns accepted gone,
    last_returns accepted' gone', ok, fun same => ?_⟩
  rw [ciphertexts, same, ← ciphertexts, whole] at elided
  exact absurd elided (by decide)

end Collision.Additions

end HomCircuit
