import HomCircuit.Proofs.Graph.Denotes
import HomCircuit.Proofs.Schedule.Shape

/-!
# HomCircuit.Proofs.Schedule.Evaluator

Backends on which a node is a function of what it reads.

```
processor     words       ↦   the operation under the keys of a ring, whatever the primitives
simulation    stand-ins   ↦   the operation on stand-ins
```

Such a backend gives the same results in every call, and an error of a node is a result, too.

* `NodeJob.Comes` — a job that comes to one result, whatever happens between its sections;
* `Node.compute` — the result of a node on the processor;
* `Evaluator` — a backend of this kind: `Evaluator.processor`, `Evaluator.simulation`;
* `Evaluator.Yields`, `Evaluator.Fails` — what the values of a graph come to, and how its nodes fail; no
  node does both (`Evaluator.Fails.not_yields`);
* `Evaluator.discipline` — a call on such a backend keeps to them.
-/

namespace HomCircuit

/-! ## jobs that come to one result -/

/-- What the scheduler sees of an outcome: a crash is a failure of its node. -/
def Outcome.result {α : Type} (n : Node) : Outcome RunError α → Except RunError α
  | .done a => .ok a
  | .failed err => .error err
  | .crashed text =>
    let reason := text.getD "unknown panic"
    .error (.nodeExecution n.id s!"panicked: {reason}")

namespace NodeJob

variable {α β : Type} {pre : Run → Prop} {rel : Run → Run → Prop}

/-- Whatever happens between its sections, a job comes to one result. -/
def Comes (pre : Run → Prop) (rel : Run → Run → Prop) (j : NodeJob α) (r : Except RunError α) : Prop :=
  j.Ensures pre rel (fun a => r = .ok a) (fun err => r = .error err)

theorem Comes.pure {a : α} : (Pure.pure a : NodeJob α).Comes pre rel (.ok a) := Ensures.pure rfl

theorem Comes.ofExcept {r : Except RunError α} : (NodeJob.ofExcept r).Comes pre rel r := by
  cases r <;> exact Ensures.ofExcept rfl

theorem Comes.ofOutcome {n : Node} {o : Outcome RunError α} :
    (NodeJob.ofOutcome n o).Comes pre rel (o.result n) := by
  cases o <;> exact Comes.ofExcept

theorem Comes.tell {calls : List PrimitiveCall} : (NodeJob.tell calls).Comes pre rel (.ok ()) :=
  Ensures.tell rfl

/-- The second job goes on with what the first comes to. -/
theorem Comes.bind {j : NodeJob α} {k : α → NodeJob β} {r : Except RunError α}
    {f : α → Except RunError β} (h : j.Comes pre rel r)
    (hk : ∀ a, r = .ok a → (k a).Comes pre rel (f a)) : (j >>= k).Comes pre rel (r >>= f) := by
  have first : j.Ensures pre rel (fun a => r = .ok a) (fun err => (r >>= f) = .error err) :=
    Job.Ensures.mono h fun _ settled => settled.mono (fun _ => id) fun _ failed => by
      rw [failed]
      rfl
  refine Ensures.bind first fun a ok => ?_
  have next := hk a ok
  rw [ok]
  exact next

/-- A job that comes to an image. -/
theorem Comes.image {j : NodeJob β} {r : Except RunError α} {f : α → β}
    (h : j.Comes pre rel (r >>= fun a => .ok (f a))) :
    j.Ensures pre rel (fun b => ∃ a, b = f a ∧ r = .ok a) (fun err => r = .error err) := by
  refine Job.Ensures.mono h fun _ settled => settled.mono (fun b same => ?_) fun err failed => ?_
  · obtain ⟨a, ok, made⟩ := Except.exists_of_bind same
    exact ⟨a, (Except.ok.inj made).symm, ok⟩
  · cases r with
    | ok a => contradiction
    | error err' => exact congrArg Except.error (Except.error.inj failed)

end NodeJob

/-! ## the processor -/

/-- The keys of a partition in a ring, unless the partition is not valid. -/
def Partition.keysIn (ring : Partition → KeySet) (q : Partition) : Except RunError KeySet :=
  match q.validate with
  | .error err => .error (.ofKey err)
  | .ok () => .ok (ring q)

/-- The keys of a node in a ring. -/
def Node.keysIn (e : Environment) (ring : Partition → KeySet) (n : Node) (q : Partition) :
    Except RunError OperationKeys := do
  let output ← q.keysIn ring
  match ← sourcePartition e n with
  | none => return { output }
  | some source => return { output, input := some (← source.keysIn ring) }

/-- The result of a node on the processor, given its partition. -/
def Node.computeIn (e : Environment) (ring : Partition → KeySet) (n : Node) (q : Partition)
    (words : List Ciphertext) : Except RunError Ciphertext := do
  let keys ← n.keysIn e ring q
  ((e.primitives.run n.op words keys (nodeNonce n.id words)).mapError (nodeFailure n)).result n

/-- The result of a node on the processor. -/
def Node.compute (e : Environment) (ring : Partition → KeySet) (n : Node) (words : List Ciphertext) :
    Except RunError Ciphertext := do
  n.computeIn e ring (← e.partition n.partition) words

/-- Only requests for valid partitions are answered. -/
theorem KeyCache.valid_of_getOrCreate {c : KeyCache} {q : Partition} {seed : KeySeed}
    {shared : SharedKeys} (h : (c.getOrCreate q seed).1 = .ok shared) : q.validate = .ok () := by
  cases valid : q.validate with
  | ok u => rfl
  | error err =>
      unfold KeyCache.getOrCreate at h
      rw [valid] at h
      contradiction

section Processor

variable {e : Environment} {n : Node} {ring : Partition → KeySet} {pre : Run → Prop}
  {rel : Run → Run → Prop} {q : Partition}

theorem comes_fetchKeys (known : q ∈ e.partitions.partitions)
    (fetches : Run.Fetches e (fun q k => k = ring q) pre rel) :
    (NodeJob.tryResources (Resources.fetchKeys q e.seed)).Comes pre rel (q.keysIn ring) := by
  refine NodeJob.Ensures.tryResources fun r keeps => ?_
  obtain ⟨answer, others⟩ := (fetches.hands r keeps).getOrCreate known
  refine ⟨fetches.across r _ keeps others, ?_⟩
  simp only [Resources.fetchKeys, Partition.keysIn]
  cases result : (r.resources.keys.getOrCreate q e.seed).1 with
  | ok shared =>
      rw [KeyCache.valid_of_getOrCreate result]
      exact congrArg Except.ok (answer shared result).symm
  | error err =>
      rw [KeyCache.getOrCreate_error result]
      rfl

theorem comes_keysFor (known : e.partition n.partition = .ok q)
    (fetches : Run.Fetches e (fun q k => k = ring q) pre rel) :
    (keysFor e n q).Comes pre rel (n.keysIn e ring q) := by
  refine .bind (comes_fetchKeys (Environment.mem_of_partition known) fetches) fun output _ => ?_
  refine .bind .ofExcept fun source found => ?_
  cases source with
  | none => exact .pure
  | some source =>
      exact .bind (comes_fetchKeys (mem_of_sourcePartition found) fetches) fun _ _ => .pure

/-- A node on the processor comes to its result. -/
theorem comes_runOnProcessor {bs : List Buffer} {words : List Ciphertext}
    (known : e.partition n.partition = .ok q)
    (fetches : Run.Fetches e (fun q k => k = ring q) pre rel)
    (copies : List.Forall₂ (Run.Copies pre rel) bs words) :
    (runOnProcessor e n q bs).Comes pre rel
      (n.computeIn e ring q words >>= fun ct => .ok (.host (.ciphertext ct))) := by
  have read : (hostCiphertexts bs).Ensures pre rel (· = words) fun _ => False :=
    ensures_hostCiphertexts copies
  have hosted : (hostCiphertexts bs).Comes pre rel (.ok words) :=
    Job.Ensures.mono read fun _ settled =>
      settled.mono (fun _ same => congrArg Except.ok same.symm) fun _ => False.elim
  rw [Node.computeIn, bind_assoc]
  exact NodeJob.Comes.bind hosted fun words _ => .bind (comes_keysFor known fetches) fun keys _ =>
    .bind .tell fun _ _ => .bind .ofOutcome fun ct _ => .pure

end Processor

/-! ## backends -/

/-- A backend on which a node is a function of what it reads. -/
structure Evaluator (e : Environment) (α : Type) where
  /-- The values that nodes read and make. -/
  make : α → Value
  /-- The result of a node on the contents of its inputs. -/
  node : Node → List α → Except RunError α
  /-- What no section of a call takes away from the resources. -/
  kept : Resources → Prop
  make_inj : ∀ a b, make a = make b → a = b
  argument : ∀ supplied v partition b, Run.argument e supplied v partition = .ok b →
    ∃ a, b = .ofHost v partition (make a)
  unknown : ∀ n inputs err, e.partition n.partition = .error err → node n inputs = .error err
  withCancellation : ∀ f r, kept r → kept (r.withCancellation f)
  announce : ∀ c r, kept r → kept (r.announce e.primitives c)
  drop : ∀ bs r, kept r → kept (r.drop bs)
  /-- A node without a remote worker comes to its result. -/
  comes : ∀ p : Plan, p.options.assignment = [] → ∀ i q bs inputs (pre : Run → Prop),
    (∀ r, pre r → kept r.resources) → e.partition (p.graph.node i).partition = .ok q →
    List.Forall₂ (fun b a => b.payload = .host (make a)) bs inputs →
    (runOn e p (choose (p.graph.node i) e.mode p.accelerating (p.worker? (p.graph.node i))).target i
      (p.graph.node i) q bs).Ensures pre (Run.Keeps kept)
      fun ran => Settles
        (fun payload => ∃ a, payload = .host (make a) ∧ node (p.graph.node i) inputs = .ok a)
        (fun err => node (p.graph.node i) inputs = .error err) ran.1
  direct : ∀ p : Plan, p.options.assignment = [] → ∀ i q bs,
    (runOn e p (choose (p.graph.node i) e.mode p.accelerating (p.worker? (p.graph.node i))).target i
      (p.graph.node i) q bs).Direct

section Backends

variable {e : Environment}

/-- The processor, as long as the key manager hands out the keys of a ring. -/
def Evaluator.processor (mode : e.mode = .cpu) (ring : Partition → KeySet) :
    Evaluator e Ciphertext where
  make := .ciphertext
  node := Node.compute e ring
  kept := e.HandsOut fun q k => k = ring q
  make_inj _ _ := Value.ciphertext.inj
  argument _ _ _ _ bound := by
    obtain ⟨-, ct, -, same, -⟩ := Run.argument_processor mode bound
    exact ⟨ct, same⟩
  unknown n words err unknown := by
    rw [Node.compute, unknown]
    rfl
  withCancellation _ _ kept := kept
  announce _ _ kept := kept
  drop _ _ kept := kept
  comes p home i q bs words pre keeps known hosts := by
    have target : choose (p.graph.node i) e.mode p.accelerating (p.worker? (p.graph.node i)) =
        ⟨.cpu, "CPU mode"⟩ := by simp [choose, mode, Plan.worker?, home]
    have fetches : Run.Fetches e (fun q k => k = ring q) pre
        (Run.Keeps (e.HandsOut fun q k => k = ring q)) := ⟨keeps, fun r keys _ others => ⟨others, rfl⟩⟩
    have copies : List.Forall₂
        (Run.Copies pre (Run.Keeps (e.HandsOut fun q k => k = ring q))) bs words :=
      hosts.imp fun b w => Run.copies_host fun r h => ⟨keeps r h, rfl⟩
    have result : (p.graph.node i).compute e ring words = (p.graph.node i).computeIn e ring q words := by
      rw [Node.compute, known]
      rfl
    rw [target, result]
    refine Job.Ensures.bind (comes_runOnProcessor known fetches copies).image fun ran settled => ?_
    cases ran <;> exact settled
  direct p home i q bs := by
    have target : choose (p.graph.node i) e.mode p.accelerating (p.worker? (p.graph.node i)) =
        ⟨.cpu, "CPU mode"⟩ := by simp [choose, mode, Plan.worker?, home]
    rw [target]
    exact Job.Direct.bind (direct_runOnProcessor q bs) fun _ => trivial

/-- Stand-ins, whatever the resources. -/
def Evaluator.simulation (mode : e.mode = .simulation) : Evaluator e Simulated where
  make := .simulated
  node := Node.simulate e
  kept _ := True
  make_inj _ _ := Value.simulated.inj
  argument _ _ _ _ bound := by
    obtain ⟨-, -, s, -, -, -, same⟩ := Run.argument_standIn mode bound
    exact ⟨s, same⟩
  unknown n stand err unknown := by
    rw [Node.simulate, unknown]
    rfl
  withCancellation _ _ kept := kept
  announce _ _ kept := kept
  drop _ _ kept := kept
  comes p home i q bs stand pre keeps known hosts := by
    have target : choose (p.graph.node i) e.mode p.accelerating (p.worker? (p.graph.node i)) =
        ⟨.simulation, "simulation mode"⟩ := by simp [choose, mode]
    rw [target]
    refine Job.Ensures.bind (ensures_runSimulated known hosts) fun ran settled => ?_
    cases ran <;> exact settled
  direct p home i q bs := by
    have target : choose (p.graph.node i) e.mode p.accelerating (p.worker? (p.graph.node i)) =
        ⟨.simulation, "simulation mode"⟩ := by simp [choose, mode]
    rw [target]
    exact Job.Direct.bind (direct_runSimulated q bs) fun _ => trivial

end Backends

/-- The same backend for a call with another token. -/
def Evaluator.withToken {e : Environment} {α : Type} (E : Evaluator e α) (token : CancelToken) :
    Evaluator { e with token } α where
  make := E.make
  node := E.node
  kept := E.kept
  make_inj := E.make_inj
  argument := E.argument
  unknown := E.unknown
  withCancellation := E.withCancellation
  announce := E.announce
  drop := E.drop
  comes := E.comes
  direct := E.direct

/-! ## what the values of a graph come to -/

namespace Evaluator

variable {e : Environment} {α : Type} (E : Evaluator e α) (g : Graph)
  (supplied : List (ValueId × Value))

/-- What the values of a graph come to. -/
def Yields : ValueId → α → Prop :=
  g.Denotes (fun v partition a =>
      Run.argument e supplied v partition = .ok (.ofHost v partition (E.make a)))
    fun n inputs a => E.node n inputs = .ok a

/-- A node fails: its partition is unknown, or it fails on what its inputs come to. -/
def Fails (n : Node) (err : RunError) : Prop :=
  e.partition n.partition = .error err ∨
    ∃ inputs, List.Forall₂ (E.Yields g supplied) n.inputs inputs ∧ E.node n inputs = .error err

variable {E g supplied}

/-- A value comes to one thing at most. -/
theorem Yields.unique (w : g.Wired) {v : ValueId} {a b : α} (h : E.Yields g supplied v a)
    (h' : E.Yields g supplied v b) : a = b := by
  refine Graph.Denotes.unique w ?_ (fun n inputs a b ha hb => Except.ok.inj (ha.symm.trans hb)) h h'
  intro v partition a b ha hb
  have same := Except.ok.inj (ha.symm.trans hb)
  exact E.make_inj a b (by simpa [Buffer.ofHost] using same)

/-- A node that fails gives no output. -/
theorem Fails.not_yields (w : g.Wired) {n : Node} (known : n ∈ g.nodes) {err : RunError}
    (h : E.Fails g supplied n err) {a : α} : ¬E.Yields g supplied n.output a := by
  intro yields
  obtain ⟨inputs, read, made⟩ := Graph.Denotes.inputs w known yields
  rcases h with unknown | ⟨inputs', read', failed⟩
  · rw [E.unknown n inputs err unknown] at made
    contradiction
  · have same : inputs = inputs' := by
      refine Graph.eq_of_forall₂ ?_ read'
      exact read.imp fun v a ha b hb => Yields.unique w ha hb
    rw [same, failed] at made
    contradiction

variable {p : Plan}

/-- A call without remote workers on such a backend. -/
def discipline (E : Evaluator e α) (sound : p.Sound) (home : p.options.assignment = [])
    (supplied : List (ValueId × Value)) : Discipline e p where
  kept := E.kept
  good := Holding E.make fun slot a => E.Yields p.graph supplied (p.graph.valueAt slot) a
  bad i := E.Fails p.graph supplied (p.graph.node i)
  withCancellation := E.withCancellation
  announce := E.announce
  drop := E.drop
  perform i alive := by
    refine ensures_perform (fun err unknown => .inl unknown) fun q bs inputs known read hosts => ?_
    refine Job.Ensures.mono (E.comes p home i q bs inputs _ (fun r h => h.1) known hosts)
      fun ran settled => settled.mono ?_ fun err failed => ?_
    · rintro payload ⟨a, rfl, made⟩
      exact ⟨a, rfl, sound.wired.denotes_output (sound.live_lt i alive) read made⟩
    · refine .inr ⟨inputs, ?_, failed⟩
      rw [← sound.wired.inputs_values i (sound.live_lt i alive)]
      exact List.forall₂_map_left_iff.mpr read
  direct i _ := direct_perform fun q bs => E.direct p home i q bs

/-- Bound arguments are what the arguments come to. -/
theorem admits (w : p.graph.Wired) : Stock.Admits e p supplied
    (Holding E.make fun slot a => E.Yields p.graph supplied (p.graph.valueAt slot) a) := by
  intro k v partition b found _ bound
  obtain ⟨a, rfl⟩ := E.argument supplied v partition b bound
  refine ⟨_, rfl, a, rfl, ?_⟩
  change E.Yields p.graph supplied (p.graph.valueAt k) a
  rw [w.valueAt_argument k _ found]
  exact .argument (Array.mem_of_getElem? found) bound

end Evaluator

end HomCircuit
