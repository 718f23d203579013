import HomCircuit.Proofs.Context.Calls
import HomCircuit.Proofs.Key.Collision
import HomCircuit.Proofs.Program.Loading
import HomCircuit.Proofs.Schedule.Progress
import HomCircuit.Proofs.Schedule.Shape

/-!
# HomCircuit.Proofs.Program.Safety

A program that was loaded does not go wrong on the processor, as long as its key manager holds no key
sets of other parameters under the identities of its partitions. The one failure that loading leaves
open is a table that fits neither modulus of its partition.

* `Program.Accepts` — what may be supplied for an input;
* `Program.Checked.covers` — the partitions of a loaded program are known and valid;
* `Program.call_safe` — its calls are safe in every interleaving.
-/

namespace HomCircuit

/-! ## loaded programs -/

namespace Program

/-- What may be supplied for an input: a message, or words of the length of its partition. -/
def Accepts (p : Program) (id : PartitionId) : Value → Prop
  | .cleartext _ => True
  | .ciphertext words => ∃ q, p.partitions.get? id = some q ∧ words.length = q.ciphertextLength
  | .simulated _ => False

variable {p : Program}

/-- The partitions of a checked program cover its graph. -/
theorem Checked.covers (checked : p.Checked) {e : Environment}
    (partitions : e.partitions = p.partitions) : e.Covers p.graph where
  valid := partitions ▸ checked.sane.valid
  partition i inside := by
    obtain ⟨q, found⟩ := checked.partition_known _ (Graph.node_mem inside)
    exact ⟨q, Environment.partition_of_get? (partitions ▸ found)⟩
  inputPartition i inside := by
    have mem := Graph.node_mem inside
    unfold Node.inputPartition
    cases op : (p.graph.node i).op with
    | changePartition source =>
        obtain ⟨q, found⟩ := checked.source_known _ mem source op
        exact ⟨q, Environment.partition_of_get? (partitions ▸ found)⟩
    | _ =>
        obtain ⟨q, found⟩ := checked.partition_known _ mem
        exact ⟨q, Environment.partition_of_get? (partitions ▸ found)⟩
  argument a mem := by
    rw [checked.arguments] at mem
    obtain ⟨q, found⟩ := checked.input_known a mem
    exact ⟨q, Environment.partition_of_get? (partitions ▸ found)⟩

/-- Inputs that have a representation are put in place. -/
theorem Checked.bind_ok (checked : p.Checked) {e : Environment}
    (partitions : e.partitions = p.partitions) {R : PartitionId → Value → Prop}
    (represented : ∀ v id q x, p.partitions.get? id = some q → R id x →
      ∃ y, Run.representation e.mode v q x = .ok y)
    {inputs : List Value} (accepted : List.Forall₂ (fun input x => R input.2 x) p.inputs inputs)
    {plan : Plan} (graph : plan.graph = p.graph) (r : Run) :
    ∃ r', Run.bind e plan (p.supply inputs) plan.graph.arguments.toList r = (.ok (), r') := by
  have nodup := checked.wired.nodup_arguments
  rw [checked.arguments] at nodup
  rw [graph, checked.arguments]
  refine Run.bind_ok (fun a mem => ⟨?_, ?_⟩) r
  · rw [graph]
    obtain ⟨k, place, -⟩ := checked.wired.exists_slot? (checked.arguments ▸ mem)
    exact ⟨k, place⟩
  · obtain ⟨x, found, fits⟩ := lookup_zip (R := R) nodup accepted a mem
    obtain ⟨q, known⟩ := checked.input_known a mem
    have partition := Environment.partition_of_get? (partitions ▸ known)
    obtain ⟨y, made⟩ := represented a.1 a.2 q x known fits
    exact ⟨.ofHost a.1 a.2 y, by simp [supply, Run.argument, found, partition, Bind.bind,
      Except.bind, made, Except.map]⟩

/-- What an input accepts has a representation on the processor. -/
theorem representation_of_accepts {v : ValueId} {id : PartitionId} {q : Partition} {x : Value}
    (known : p.partitions.get? id = some q) (accepts : p.Accepts id x) :
    ∃ y, Run.representation .cpu v q x = .ok y := by
  cases x with
  | cleartext message => exact ⟨_, rfl⟩
  | ciphertext words =>
      obtain ⟨q', known', length⟩ := accepts
      obtain rfl := Option.some.inj (known.symm.trans known')
      exact ⟨.ciphertext words, by simp [Run.representation, length]⟩
  | simulated s => exact accepts.elim

end Program

/-! ## a program whose keys may collide -/

namespace Collision.Negation

/-- One negation. -/
def artifact : Artifact :=
  { name := "negation"
    partitions := [{ name := "P", lweDim := 1, glweDim := 1, polySize := 4 }]
    inputs := [{ value := 0, partition := "P" }]
    outputs := [1]
    nodes := [{ id := 0, op := .neg, inputs := [0], output := 1, partition := "P" }] }

def program : Program := (Program.load artifact).toOption.getD default

/-- A context with one worker and a key manager. -/
def context (keys : KeyCache) : Context :=
  { options := { parallelism := 1, deterministic := true, elide := false }
    primitives := .reference, resources := { keys } }

/-- Room for key sets, and none there. -/
def fresh : KeyCache := .empty 32

/-- The key set of a colliding partition with longer ciphertexts. -/
def stale : KeyCache := (fresh.getOrCreate long {}).2

def inputs : List Value := [.cleartext 1]

def request : CallOptions :=
  { requested := program.outputs, deterministic := true, elide := false }

def plan : Plan := (Plan.prepare program.graph request false).toOption.getD default

def token : CancelToken := ⟨0, none⟩

/-- A call in a context with its arguments in place. -/
def begun (c : Context) (t : CancelToken) : Run :=
  (Run.bind (c.environment program.partitions t) plan (program.supply inputs)
    plan.graph.arguments.toList (Run.initial plan c.resources)).2

/-- One worker has done everything. -/
def ended (c : Context) (t : CancelToken) : Crew :=
  (Plan.crew (begun c t) 1).moves (c.environment program.partitions t) plan
    (List.replicate 20 (.worker 0))

/-- What the call answers. -/
def answer (c : Context) (t : CancelToken) : Answer := (ended c t).run.finish plan (.ok ())

/-- The error of a result. -/
def failure? {α : Type} : Except RunError α → Option RunError
  | .ok _ => none
  | .error err => some err

theorem loaded : Program.load artifact = .ok program :=
  Except.eq_ok_of_isOk (by decide +kernel)

theorem prepared : Plan.prepare program.graph request false = .ok plan :=
  Except.eq_ok_of_isOk (by decide +kernel)

/-- A call with one worker answers once the worker is gone. -/
theorem returns {c : Context} {t : CancelToken}
    (bound : (Run.bind (c.environment program.partitions t) plan (program.supply inputs)
      plan.graph.arguments.toList (Run.initial plan c.resources)).1.isOk = true)
    (gone : (ended c t).allGone = true) :
    plan.MayReturn (c.environment program.partitions t) 1 (program.supply inputs) c.resources
      (answer c t) :=
  .finished _ (Prod.ext (Except.eq_ok_of_isOk bound) rfl) gone

theorem accepted :
    List.Forall₂ (fun input x => program.Accepts input.2 x) program.inputs inputs := by
  have declared : program.inputs = [(⟨0⟩, ⟨0⟩)] := by decide +kernel
  rw [declared]
  exact .cons trivial .nil

theorem requested_known : ∀ v ∈ request.requested, ∃ slot, program.graph.slot? v = some slot :=
  (Program.checked_of_load loaded).output_known

/-- The only node is no lookup. -/
theorem op_ne_lookup {i : Nat} (inside : i < plan.graph.size) (table : List UInt64) :
    (plan.graph.node i).op ≠ .lookup table := by
  have size : plan.graph.size = 1 := by decide +kernel
  have op : (plan.graph.node 0).op = .neg := by decide +kernel
  obtain rfl : i = 0 := by omega
  simp [op]

end Collision.Negation

/-! ## calls of loaded programs -/

namespace Program

variable {p : Program}

/-- A loaded program, called with what its inputs accept in a live context on the processor whose key
manager has no key sets of other parameters under the identities of its partitions, is put in place,
can always go on, and answers in every schedule, that by the clock among them, ciphertexts of the right lengths, unless the call was cancelled or the
table of a live lookup fits neither modulus of its partition. -/
theorem call_safe {a : Artifact} (loaded : load a = .ok p) {c : Context} (live : c.shut = false)
    (processor : c.mode = .cpu) (reference : c.primitives = .reference)
    (keys : c.resources.keys.Holds p.partitions c.options.seed fun q k => k.IsOf q)
    {inputs : List Value}
    (accepted : List.Forall₂ (fun input x => p.Accepts input.2 x) p.inputs inputs)
    {o : CallOptions} (home : o.assignment = [])
    (known : ∀ v ∈ o.requested, ∃ slot, p.graph.slot? v = some slot) (t : CancelToken) :
    let e := c.environment p.partitions t
    -- no divisor is zero, and no slot is out of range
    (∀ q ∈ p.partitions.partitions, q.plaintextModulus ≠ 0 ∧ q.delta ≠ 0) ∧
    (∀ i < p.graph.size, p.graph.outputSlot i < p.graph.slotCount ∧
      ∀ slot ∈ p.graph.inputsOf i, slot < p.graph.slotCount) ∧
    ∃ plan run, Plan.prepare p.graph o false = .ok plan ∧
      -- the arguments are put in place
      Run.bind e plan (p.supply inputs) plan.graph.arguments.toList
        (Run.initial plan c.resources) = (.ok (), run) ∧
      -- wherever an interleaving has come to, the workers can go on to an answer
      (∀ workers ms, ∃ ks : List Nat,
        c.MayExecute p.graph p.partitions (p.supply inputs) o t
          (((Plan.crew run workers).moves e plan (ms ++ ks.map .worker)).run.finish plan (.ok ()))) ∧
      -- the schedule by the clock is one of them
      c.MayExecute p.graph p.partitions (p.supply inputs) o t
        (c.executed p.graph p.partitions (p.supply inputs) o t) ∧
      -- and every answer is all requested values, or tells of a cancellation or a misfit table
      ∀ answer, c.MayExecute p.graph p.partitions (p.supply inputs) o t answer →
        (∃ values, answer.1 = .ok values ∧
          List.Forall₂ (fun q a => a.1 = q.1 ∧
            ∃ ct, a.2 = .ciphertext ct ∧ e.Shaped plan.graph q.2 ct) plan.requested values) ∨
        ∃ f : Failure, ∃ skipped,
          answer.1 = .error (.graphCancelled f.error f.node skipped) ∧
          f.Blames plan fun i => (plan.graph.node i).Misfits e := by
  intro e
  have checked := checked_of_load loaded
  refine ⟨fun q mem => ?_, fun i inside => ⟨?_, fun slot read => ?_⟩, ?_⟩
  · have valid := checked.sane.valid q mem
    exact ⟨valid.plaintextModulus_ne_zero, valid.delta_ne_zero⟩
  · rw [checked.wired.slotCount]
    exact Nat.add_lt_add_left inside _
  · exact (checked.wired.inputs_lt i slot read).2
  obtain ⟨plan, prepared⟩ := Plan.exists_prepare known false
  obtain ⟨sound, graph, options⟩ := Plan.sound_of_prepare checked.wired prepared
  have covers : e.Covers plan.graph := graph ▸ checked.covers rfl
  have home' : plan.options.assignment = [] := by rw [options, home]
  have handed : e.HandsOut (fun q k => k.IsOf q) c.resources :=
    KeyCache.answers_of_holds checked.sane.distinct (fun q _ _ => KeySet.isOf_ofSeed q _) keys
  have represented (v : ValueId) (id : PartitionId) (q : Partition) (x : Value)
      (found : p.partitions.get? id = some q) (accepts : p.Accepts id x) :
      ∃ y, Run.representation e.mode v q x = .ok y := by
    rw [show e.mode = .cpu from processor]
    exact representation_of_accepts found accepts
  obtain ⟨run, bound⟩ := checked.bind_ok (e := e) rfl represented accepted graph
    (Run.initial plan c.resources)
  have prepared' : Plan.prepare p.graph o (c.mode = .accelerator && c.resources.hasDevices) =
      .ok plan := by simpa [processor] using prepared
  refine ⟨plan, run, prepared, bound, fun workers ms => ?_,
    Context.mayExecute_executed fun plan' prepared'' workers => ?_, fun answer answered => ?_⟩
  · obtain ⟨ks, returns⟩ := Plan.exists_answer
      (D := .shapes sound covers processor reference home') sound handed
      (Stock.admits_shapes processor) bound workers ms
    exact ⟨ks, .ran live prepared' returns⟩
  · obtain rfl := Except.ok.inj (prepared'.symm.trans prepared'')
    exact Plan.execute_mayReturn (D := .shapes sound covers processor reference home') sound
      (Environment.duration_reference reference) handed (Stock.admits_shapes processor) workers
  · cases answered with
    | shut gone => simp [live] at gone
    | unprepared _ refused => simp [prepared'] at refused
    | ran _ prepared'' returns =>
        obtain rfl := Except.ok.inj (prepared'.symm.trans prepared'')
        exact returns.shaped sound covers processor reference home' handed bound

end Program

namespace Collision.Negation

/-- With a fresh key manager, a negation is put in place and answers as it should. -/
theorem call_safe_fresh :
    Program.load artifact = .ok program ∧
      ∃ plan run, Plan.prepare program.graph request false = .ok plan ∧
        Run.bind ((context fresh).environment program.partitions token) plan
          (program.supply inputs) plan.graph.arguments.toList
          (Run.initial plan (context fresh).resources) = (.ok (), run) ∧
        ∀ answer, (context fresh).MayExecute program.graph program.partitions
            (program.supply inputs) request token answer →
          (∃ values : List (ValueId × Value), answer.1 = .ok values ∧
            List.Forall₂ (fun q a => a.1 = q.1 ∧ ∃ ct, a.2 = .ciphertext ct ∧
              ((context fresh).environment program.partitions token).Shaped plan.graph q.2 ct)
              plan.requested values) ∨
          ∃ f : Failure, ∃ skipped,
            answer.1 = .error (.graphCancelled f.error f.node skipped) ∧
            f.Blames plan fun i =>
              (plan.graph.node i).Misfits ((context fresh).environment program.partitions token) := by
  obtain ⟨-, -, plan, run, prepared, bound, -, -, answers⟩ :=
    Program.call_safe loaded (c := context fresh) rfl rfl rfl (KeyCache.holds_empty 32) accepted
      (o := request) rfl requested_known token
  exact ⟨loaded, plan, run, prepared, bound, answers⟩

/-- With the key set of a colliding partition in the cache, the negation fails, though the call is not
cancelled and the program has no lookup. -/
theorem stale_keys_fail :
    Program.load artifact = .ok program ∧
      List.Forall₂ (fun input x => program.Accepts input.2 x) program.inputs inputs ∧
      (context stale).MayExecute program.graph program.partitions (program.supply inputs) request
        token (answer (context stale) token) ∧
      ¬((∃ values, (answer (context stale) token).1 = .ok values) ∨
        ∃ f : Failure, ∃ skipped,
          (answer (context stale) token).1 = .error (.graphCancelled f.error f.node skipped) ∧
          f.Blames plan fun i =>
            (plan.graph.node i).Misfits ((context stale).environment program.partitions token)) := by
  have told : failure? (answer (context stale) token).1 =
      some (.graphCancelled (.nodeExecution ⟨0⟩ "Ciphertext has 5 words, expected 9 (neg)")
        (some ⟨0⟩) 0) := by decide +kernel
  refine ⟨loaded, accepted,
    .ran rfl prepared (returns (by decide +kernel) (by decide +kernel)), ?_⟩
  rintro (⟨values, ok⟩ | ⟨f, skipped, failed, blames⟩)
  · simp [failure?, ok] at told
  · simp only [failure?, failed, Option.some.injEq, RunError.graphCancelled.injEq] at told
    rcases blames with rfl | ⟨i, alive, ⟨table, q, op, -⟩, -⟩
    · simp at told
    · obtain ⟨sound, -, -⟩ :=
        Plan.sound_of_prepare (Program.checked_of_load loaded).wired prepared
      exact op_ne_lookup (sound.live_lt i alive) table op

end Collision.Negation

end HomCircuit
