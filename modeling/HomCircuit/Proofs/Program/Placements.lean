import HomCircuit.Proofs.Program.Fallback
import HomCircuit.Proofs.Program.Outputs
import HomCircuit.Proofs.Schedule.Accounting

/-!
# HomCircuit.Proofs.Program.Placements

What the records of a call tell of the backends that its nodes were sent to.

```
simulation, remote, processor   →  their name, however the node ends
device, with a result           →  the device
device, and then the processor  →  the processor, with a fallback
device, and nothing else        →  the processor, without one
```

A record gets its place when the node has run, and only a device that gave a result has a name by then.
So the last line tells of a backend on which the node has never been.

* `NodeRecord.Names` — a record that tells where its node was sent;
* `Performed.Placed` — what running a node puts on record, on every way out;
* `Trace.Places` — the records of a trace, with the exact exception;
* `Program.records_name` — so are the records of every call.
-/

namespace HomCircuit

/-- A record of a node names the target that was chosen for it: its backend, or the processor with a
fallback from a device. -/
inductive NodeRecord.Names (n : NodeId) : Target → NodeRecord → Prop
  | cpu : NodeRecord.Names n .cpu ⟨n, .cpu, false⟩
  | simulation : NodeRecord.Names n .simulation ⟨n, .simulation, false⟩
  | remote (worker : Nat) : NodeRecord.Names n (.remote worker) ⟨n, .remote worker, false⟩
  | device (d : DeviceId) : NodeRecord.Names n .accelerator ⟨n, .accelerator d, false⟩
  | fellBack : NodeRecord.Names n .accelerator ⟨n, .cpu, true⟩

/-- The processor without a fallback does not name a device. -/
theorem NodeRecord.not_names_device (n : NodeId) : ¬Names n .accelerator ⟨n, .cpu, false⟩ := nofun

/-! ## one node -/

/-- What is on record of a node that has run: the target that was chosen for it, unless this is a device
that failed and the processor did not take over. -/
inductive Performed.Placed (e : Environment) (n : NodeId) (target : Target) (done : Performed) : Prop
  | named (names : NodeRecord.Names n target done.record)
      (ended : target = .accelerator → (∃ b, done.result = .ok b) ∨ done.record.fellBack = true)
  | unnamed {err : RunError} (device : target = .accelerator) (record : done.record = ⟨n, .cpu, false⟩)
      (failed : done.result = .error err) (alone : (err.isRecoverable && e.cpuFallback) = false)

/-- The target of a node of a plan. -/
def Plan.target (e : Environment) (p : Plan) (n : Node) : Target :=
  (choose n e.mode p.accelerating (p.worker? n)).target

section Perform

variable {e : Environment} {p : Plan} {n : Node} {q : Partition}

/-- A node is on record where it was sent, on every way out but one. -/
theorem places_runOn (target : Target) (i : Nat) (bs : List Buffer) (v : ValueId) (id : PartitionId) :
    (runOn e p target i n q bs).Ensures (fun _ => True) (fun _ _ => True) fun ran =>
      Performed.Placed e n.id target ⟨ran.1.map (⟨v, id, ·⟩), ⟨n.id, ran.2.1, ran.2.2⟩⟩ := by
  cases target with
  | simulation => exact .bind (.free _) fun _ _ => .pure (.named .simulation nofun)
  | cpu => exact .bind (.free _) fun _ _ => .pure (.named .cpu nofun)
  | remote w => exact .bind (.free _) fun _ _ => .pure (.named (.remote w) nofun)
  | accelerator =>
      refine .bind (.free _) fun out _ => ?_
      cases out with
      | ok made => exact .pure (.named (.device made.2) fun _ => .inl ⟨_, rfl⟩)
      | error err =>
          dsimp only
          split
          · exact .bind (.free _) fun _ _ => .bind (.free _) fun _ _ =>
              .pure (.named .fellBack fun _ => .inr rfl)
          · next stays => exact .pure (.unnamed rfl rfl rfl (Bool.eq_false_iff.mpr stays))

/-- So is every node of a known partition that finds its inputs. -/
theorem places_perform (i : Nat) (known : e.partition (p.graph.node i).partition = .ok q) :
    (perform e p i).Ensures (Run.Furnished p.graph i) (fun _ _ => True)
      (Performed.Placed e (p.graph.node i).id (p.target e (p.graph.node i))) := by
  simp only [perform, known]
  have read := furnished_readInputs (p := p) (n := p.graph.node i) (i := i) fun slot mem => mem
  refine .bind (read.weaken (fun _ => id) (fun _ _ _ _ => trivial) fun _ => id) fun inputs found => ?_
  cases inputs with
  | error err => exact found.elim
  | ok bs =>
      have placed := places_runOn (e := e) (p := p) (n := p.graph.node i) (q := q)
        (p.target e (p.graph.node i)) i bs (p.graph.node i).output (p.graph.node i).partition
      exact .bind (placed.weaken (fun _ _ => trivial) (fun _ _ _ => id) fun _ => id) fun _ => .pure

end Perform

/-! ## records of a call -/

/-- The records of a trace name the targets of their nodes, exactly where no node was sent to a device
without having completed or fallen back. In this one case a record tells of the processor. -/
def Trace.Places (t : Trace) (g : Graph) (target : Node → Target) : Prop :=
  ∀ record ∈ t.records, ∃ n ∈ g.nodes, record.node = n.id ∧ n.id ∈ t.started ∧
    (NodeRecord.Names n.id (target n) record ↔
      (target n = .accelerator → n.id ∈ t.completed ∨ record.fellBack = true)) ∧
    (¬NodeRecord.Names n.id (target n) record → record = ⟨n.id, .cpu, false⟩)

/-- What is placed one way or the other tells by itself which it is. -/
theorem Performed.Placed.names_iff {e : Environment} {n : NodeId} {target : Target}
    {done : Performed} (placed : done.Placed e n target) :
    (NodeRecord.Names n target done.record ↔
      (target = .accelerator → (∃ b, done.result = .ok b) ∨ done.record.fellBack = true)) ∧
    (¬NodeRecord.Names n target done.record → done.record = ⟨n, .cpu, false⟩) := by
  cases placed with
  | named names ended => simpa [names] using ended
  | unnamed device record failed alone => simp [device, record, failed, NodeRecord.not_names_device]

section Calls

variable {e : Environment} {p : Plan} {g : Graph}

/-- The records of a call, wherever its workers have come to. -/
theorem Plan.places_chronicle (sound : p.Sound) (own : p.graph.Identified)
    (known : ∀ n ∈ p.graph.nodes, ∃ q, e.partition n.partition = .ok q) {run : Run}
    (begun : run.Begun p) (workers : Nat) (ms : List Move) (bound : Except RunError Unit) :
    ((p.chronicle e run workers ms).run.finish p bound).2.1.Places p.graph (p.target e) := by
  obtain ⟨posts, m⟩ := Plan.valid_chronicle (e := e) sound begun workers ms
  have a := m.course.accounts sound begun.toFresh
  have placed := Plan.settled_of_ensures sound begun
    (P := fun i done => done.Placed e (p.graph.node i).id (p.target e (p.graph.node i)))
    (fun i alive => (known _ (Graph.node_mem (sound.live_lt i alive))).elim fun _ => places_perform i)
    workers ms
  obtain ⟨peakLive, told⟩ := (p.chronicle e run workers ms).run.trace_finish p bound
  rw [told]
  intro record mem
  have records := congrArg Trace.records a.trace
  obtain ⟨⟨i, done⟩, settled, rfl⟩ := List.mem_map.mp (records ▸ mem)
  have started : i ∈ (p.chronicle e run workers ms).history.started :=
    a.started_perm.mem_iff.mpr (List.mem_append_left _ (List.mem_map.mpr ⟨_, settled, rfl⟩))
  refine ⟨p.graph.node i, Graph.node_mem (sound.live_lt i (a.started_live started)),
    a.named _ settled, ?_, ?_⟩
  · rw [a.trace]
    exact List.mem_map.mpr ⟨i, started, rfl⟩
  · rw [a.mem_completed_iff sound own settled]
    exact (placed _ settled).names_iff

/-- The target of a node in a context, as some nodes are assigned to remote workers. -/
def Context.target (c : Context) (assignment : List (NodeId × Nat)) (n : Node) : Target :=
  (choose n c.mode (c.mode = .accelerator && c.resources.hasDevices) (assignment.lookup n.id)).target

/-- It is that of every plan for a call in the context. -/
theorem Context.target_plan (c : Context) {o : CallOptions}
    (prepared : Plan.prepare g o (c.mode = .accelerator && c.resources.hasDevices) = .ok p)
    (partitions : Registry) (t : CancelToken) :
    p.target (c.environment partitions t) = c.target o.assignment := by
  obtain ⟨requested, -, rfl⟩ := Except.exists_of_map prepared
  rfl

/-- A call that begins changes no target. -/
theorem Context.target_begin (c : Context) (token : Option CancelToken) :
    (c.begin token).2.target = c.target := by
  obtain ⟨cancellation, begun⟩ := c.exists_begin token
  rw [begun]
  rfl

/-- A call that was refused has no records. -/
theorem Trace.places_nil {t : Trace} (none_ : t.records = []) (target : Node → Target) :
    t.Places g target := by
  simp [Places, none_]

/-- The records of a call of a graph, in any order or by the clock. -/
theorem Context.Executes.places {c : Context} {partitions : Registry} (wired : g.Wired)
    (own : g.Identified) (known : ∀ n ∈ g.nodes, ∃ q, partitions.get? n.partition = some q)
    {supplied : List (ValueId × Value)} {o : CallOptions} {t : CancelToken} {a : Answer}
    (h : c.Executes g partitions supplied o t a) : a.2.1.Places g (c.target o.assignment) := by
  have ran {plan : Plan} (prepared : Plan.prepare g o
        (c.mode = .accelerator && c.resources.hasDevices) = .ok plan) {run : Run} {workers : Nat}
      {ms : List Move} (bound : Run.bind (c.environment partitions t) plan supplied
        plan.graph.arguments.toList (Run.initial plan c.resources) = (.ok (), run)) :
      (((Plan.crew run workers).moves (c.environment partitions t) plan ms).run.finish plan
        (.ok ())).2.1.Places g (c.target o.assignment) := by
    have target := c.target_plan prepared partitions t
    obtain ⟨sound, rfl, rfl⟩ := Plan.sound_of_prepare wired prepared
    obtain ⟨begun, -⟩ := Run.begun_of_bind sound bound
    rw [← plan.crew_chronicle, ← target]
    exact Plan.places_chronicle sound own
      (fun n mem => (known n mem).imp fun q => Environment.partition_of_get?) begun workers ms _
  have refused {plan : Plan} {err : RunError} {run : Run} (bound : Run.bind
        (c.environment partitions t) plan supplied plan.graph.arguments.toList
        (Run.initial plan c.resources) = (.error err, run)) :
      (run.finish plan (.error err)).2.1.Places g (c.target o.assignment) := by
    obtain ⟨peakLive, told⟩ := run.trace_finish plan (.error err)
    refine Trace.places_nil ?_ _
    rw [told, (Run.fresh_refused bound).1.trace]
  rcases h with executes | rfl
  · cases executes with
    | shut gone => exact Trace.places_nil rfl _
    | unprepared live failed => exact Trace.places_nil rfl _
    | ran live prepared returns =>
        cases returns with
        | refused bound => exact refused bound
        | finished ms bound gone => exact ran prepared bound
  · unfold Context.executed Context.execute
    split
    · exact Trace.places_nil rfl _
    · split
      · exact Trace.places_nil rfl _
      · next plan prepared =>
        generalize begun : Run.bind (c.environment partitions t) plan supplied
          plan.graph.arguments.toList (Run.initial plan c.resources) = bound
        obtain ⟨result, run⟩ := bound
        cases result with
        | error err =>
            simp only [Plan.execute_refused begun]
            exact refused begun
        | ok u =>
            obtain ⟨ks, -, answer⟩ := Plan.execute_eq (c.environment partitions t) plan
              (c.workers?.getD 1) supplied c.resources begun
            simp only [answer]
            exact ran prepared begun

end Calls

/-! ## of a program -/

namespace Program

variable {p : Program} {inputs : List Value} {o : CallChoice} {c : Context}

/-- A call of a program, in any order or by the clock, is refused and has nothing to trace, or runs its
graph. -/
theorem refused_or_runs {r : Except RunError (List Value) × Trace × Context}
    (h : p.MayCall inputs o c r ∨ r = p.callWith inputs o c) :
    r.2.1 = {} ∨ ∃ a, p.Runs inputs o c a r := by
  rcases h with may | rfl
  · rcases may.cases with ⟨err, rfl⟩ | ⟨t, c', a, begun, executes, rfl⟩
    · exact .inl rfl
    · obtain ⟨rfl, rfl⟩ := Prod.mk.inj begun
      exact .inr ⟨a, .inl executes, rfl⟩
  · by_cases count : inputs.length = p.inputs.length
    · cases found : o.assignment.find? (c.resources.remotes.length ≤ ·.2) with
      | none => exact .inr ⟨_, .inr rfl, callWith_eq count found⟩
      | some assigned =>
          have remotes : (c.handOver o.token).resources.remotes = c.resources.remotes := by
            cases o.token <;> rfl
          left
          simp [callWith, count, remotes, found]
    · left
      simp [callWith, count]

/-- The records of a call of a loaded program, in whatever mode, with any devices and settings, on any
assignment to remote workers, in any order or by the clock, and however it ends: each tells of a node that
has started, and it names the target that was chosen for the node exactly if this is no device, or the
node has completed there, or the processor took over. Of a node that failed on the way to a device, the
record tells that it ran on the processor. -/
theorem records_name {artifact : Artifact} (loaded : load artifact = .ok p)
    {r : Except RunError (List Value) × Trace × Context}
    (h : p.MayCall inputs o c r ∨ r = p.callWith inputs o c) :
    ∀ record ∈ r.2.1.records, ∃ n ∈ p.graph.nodes, record.node = n.id ∧ n.id ∈ r.2.1.started ∧
      let target := (choose n c.mode (c.mode = .accelerator && c.resources.hasDevices)
        (o.assignment.lookup n.id)).target
      (NodeRecord.Names n.id target record ↔
        (target = .accelerator → n.id ∈ r.2.1.completed ∨ record.fellBack = true)) ∧
      (¬NodeRecord.Names n.id target record → record = ⟨n.id, .cpu, false⟩) := by
  have checked := checked_of_load loaded
  obtain ⟨nodes, arguments, built⟩ := exists_build_of_load loaded
  have own := Graph.identified_of_build built
  change r.2.1.Places p.graph (c.target o.assignment)
  rcases refused_or_runs h with nothing | ⟨a, ran⟩
  · exact Trace.places_nil (by rw [nothing]) _
  · rw [ran.answer, ← c.target_begin o.token]
    exact ran.executes.places checked.wired own checked.partition_known

end Program

/-! ## a device that is too small, and nothing to fall back on -/

namespace Exhaustion

/-- A context with the small device, where the processor does not take over. -/
def stranded : Context :=
  { context true (.empty 32) with
    options := { (context true (.empty 32)).options with cpuFallback := false } }

/-- The nodes that a trace lists as started and as completed, and its records. -/
def traced (r : Except RunError (List Value) × Trace × Context) :
    List NodeId × List NodeId × List NodeRecord :=
  (r.2.1.started, r.2.1.completed, r.2.1.records)

/-- Where the processor takes over, both nodes are named: the one on the device, and the one that fell
back. -/
theorem records_name_exhausted :
    ∃ r, program.MayCall inputs {} (context true (.empty 32)) r ∧
      r.2.1.records = [⟨⟨0⟩, .accelerator ⟨0⟩, false⟩, ⟨⟨1⟩, .cpu, true⟩] ∧
      ∀ record ∈ r.2.1.records, ∃ n ∈ program.graph.nodes, record.node = n.id ∧
        NodeRecord.Names n.id (choose n .accelerator true none).target record := by
  have told : (alone program inputs (context true (.empty 32)) 60).map traced =
      some ([⟨0⟩, ⟨1⟩], [⟨0⟩, ⟨1⟩], [⟨⟨0⟩, .accelerator ⟨0⟩, false⟩, ⟨⟨1⟩, .cpu, true⟩]) := by
    decide +kernel
  obtain ⟨r, called, told⟩ := Option.map_eq_some_iff.mp told
  simp only [traced, Prod.mk.injEq] at told
  obtain ⟨started, completed, records⟩ := told
  have happens := mayCall_of_alone accepted.length_eq.symm rfl called
  refine ⟨r, happens, records, fun record mem => ?_⟩
  obtain ⟨n, known, named, began, names, -⟩ := Program.records_name loaded (.inl happens) record mem
  exact ⟨n, known, named, names.mpr fun _ => .inl (by rwa [completed, ← started])⟩

/-- Where it does not, the node that found no room is on record as if it had run on the processor. -/
theorem device_unnamed :
    Program.load artifact = .ok program ∧ stranded.mode = .accelerator ∧
      stranded.resources.hasDevices = true ∧ stranded.options.cpuFallback = false ∧
      ∃ r, program.MayCall inputs {} stranded r ∧ NodeFailed r.1 ∧
        ∃ record ∈ r.2.1.records, ∃ n ∈ program.graph.nodes, record.node = n.id ∧
          (choose n stranded.mode (stranded.mode = .accelerator && stranded.resources.hasDevices)
            none).target = .accelerator ∧
          record.placement = .cpu ∧ record.fellBack = false := by
  have told : (alone program inputs stranded 60).map
      (fun r => (Collision.Negation.failure? r.1, traced r)) =
      some (some (.graphCancelled (.device (.outOfMemory ⟨0⟩ 40 0)) (some ⟨1⟩) 0),
        [⟨0⟩, ⟨1⟩], [⟨0⟩], [⟨⟨0⟩, .accelerator ⟨0⟩, false⟩, ⟨⟨1⟩, .cpu, false⟩]) := by
    decide +kernel
  obtain ⟨r, called, told⟩ := Option.map_eq_some_iff.mp told
  simp only [traced, Prod.mk.injEq] at told
  obtain ⟨failed, -, -, records⟩ := told
  refine ⟨loaded, rfl, rfl, rfl, r, mayCall_of_alone accepted.length_eq.symm rfl called,
    ⟨_, _, _, Collision.Negation.eq_error_of_failure? failed⟩, ⟨⟨1⟩, .cpu, false⟩, ?_,
    ⟨⟨1⟩, .add, [⟨1⟩, ⟨0⟩], ⟨2⟩, ⟨0⟩, true⟩, by decide +kernel, rfl, rfl, rfl, rfl⟩
  rw [records]
  exact List.mem_cons_of_mem _ List.mem_cons_self

end Exhaustion

end HomCircuit
