import HomCircuit.Proofs.Key.Answers
import HomCircuit.Proofs.Schedule.Ledger

/-!
# HomCircuit.Proofs.Schedule.Perform

What a node comes to on the processor and on stand-ins, as a function of its inputs, and the
disciplines of these two backends.

```
read inputs  →  fetch keys  →  run the operation          (processor)
read inputs  →  run on stand-ins                          (simulation)
```

* `Node.Computes` — the results of a node on the processor, given the keys that are handed out;
* `Node.simulate` — the result of a node on stand-ins;
* `Discipline.processor`, `Discipline.simulation` — the two backends as the scheduler sees them.
-/

namespace HomCircuit

/-! ## jobs of a node -/

namespace NodeJob

variable {α β : Type} {pre : Run → Prop} {rel : Run → Run → Prop} {good : α → Prop}
  {bad : RunError → Prop}

/-- What a job of a node guarantees: a good result, or an error that it may fail with. -/
def Ensures (pre : Run → Prop) (rel : Run → Run → Prop) (good : α → Prop) (bad : RunError → Prop)
    (j : NodeJob α) : Prop :=
  Job.Ensures pre rel (Settles good bad) j.run

theorem Ensures.pure {a : α} (h : good a) : (Pure.pure a : NodeJob α).Ensures pre rel good bad := h

theorem Ensures.bind {P : α → Prop} {Q : β → Prop} {j : NodeJob α} {k : α → NodeJob β}
    (h : j.Ensures pre rel P bad) (hk : ∀ a, P a → (k a).Ensures pre rel Q bad) :
    (j >>= k).Ensures pre rel Q bad := by
  refine Job.Ensures.bind h fun r settled => ?_
  cases r with
  | ok a => exact hk a settled
  | error err => exact settled

theorem Ensures.ofExcept {r : Except RunError α} (h : Settles good bad r) :
    (NodeJob.ofExcept r).Ensures pre rel good bad := h

theorem Ensures.lift {j : Job Run α} (h : j.Ensures pre rel good) :
    NodeJob.Ensures pre rel good bad (ExceptT.lift j) :=
  Job.Ensures.bind h fun _ settled => settled

theorem Ensures.tell {calls : List PrimitiveCall} {goal : Unit → Prop} (h : goal ()) :
    (NodeJob.tell calls).Ensures pre rel goal bad :=
  Ensures.lift (Job.Ensures.tell h)

theorem Ensures.tryResources {act : Resources → Except RunError α × Resources}
    (h : ∀ r, pre r → rel r { r with resources := (act r.resources).2 } ∧
      Settles good bad (act r.resources).1) :
    (NodeJob.tryResources act).Ensures pre rel good bad :=
  Ensures.bind (P := Settles good bad) (Ensures.lift (Job.Ensures.atomic h))
    fun _ settled => Ensures.ofExcept settled

/-- A job of a node that never waits. -/
def Direct (j : NodeJob α) : Prop := Job.Direct j.run

theorem Direct.pure {a : α} : (Pure.pure a : NodeJob α).Direct := trivial

theorem Direct.bind {j : NodeJob α} {k : α → NodeJob β} (h : j.Direct) (hk : ∀ a, (k a).Direct) :
    (j >>= k).Direct := by
  refine Job.Direct.bind h fun r => ?_
  cases r with
  | ok a => exact hk a
  | error err => trivial

theorem Direct.ofExcept {r : Except RunError α} : (NodeJob.ofExcept r).Direct := trivial

theorem Direct.lift {j : Job Run α} (h : j.Direct) : NodeJob.Direct (ExceptT.lift j) :=
  Job.Direct.bind h fun _ => trivial

theorem Direct.tell {calls : List PrimitiveCall} : (NodeJob.tell calls).Direct :=
  Direct.lift Job.Direct.tell

theorem Direct.tryResources {act : Resources → Except RunError α × Resources} :
    (NodeJob.tryResources act).Direct :=
  Direct.bind (Direct.lift Job.Direct.atomic) fun _ => Direct.ofExcept

theorem Direct.ofOutcome {n : Node} {o : Outcome RunError α} : (NodeJob.ofOutcome n o).Direct := by
  cases o <;> exact Direct.ofExcept

end NodeJob

/-! ## reading inputs -/

section Read

variable {e : Environment} {p : Plan} {n : Node} {i : Nat} {kept : Resources → Prop}
  {good : Nat → Value → Prop} {bad : RunError → Prop}

/-- A node that finds its inputs reads them. -/
theorem ensures_readInputs {slots : List Nat} (reads : ∀ slot ∈ slots, slot ∈ p.graph.inputsOf i) :
    (readInputs p n slots).Ensures (Run.Supplied kept good p.graph i) (Run.Keeps kept)
      (List.Forall₂ (fun slot b => ∃ v, b.payload = .host v ∧ good slot v) slots)
      (fun _ => False) := by
  induction slots with
  | nil => exact .pure .nil
  | cons slot rest ih =>
      obtain ⟨read, others⟩ := List.forall_mem_cons.mp reads
      refine .bind (P := fun b =>
        ∃ b' v, b = some b' ∧ b'.payload = .host v ∧ good slot v) (.lift (.look ?_)) ?_
      · rintro r ⟨keeps, there⟩
        obtain ⟨b, v, found, host, fits⟩ := there slot read
        exact ⟨⟨keeps, rfl⟩, b, v, found, host, fits⟩
      · rintro b ⟨b', v, rfl, host, fits⟩
        exact .bind (ih others) fun bs read => .pure (.cons ⟨v, host, fits⟩ read)

theorem direct_readInputs (slots : List Nat) : (readInputs p n slots).Direct := by
  induction slots with
  | nil => exact .pure
  | cons slot rest ih =>
      refine .bind (.lift .look) fun b => ?_
      cases b with
      | none => exact .ofExcept
      | some b => exact .bind ih fun _ => .pure

/-- A host copy of a buffer has some words, and making it changes the state along a relation. -/
def Run.Copies (pre : Run → Prop) (rel : Run → Run → Prop) (b : Buffer) (words : Ciphertext) : Prop :=
  ∀ r, pre r → (r.resources.toHost b).1 = .ok (.ciphertext words) ∧
    rel r { r with resources := (r.resources.toHost b).2 }

/-- A buffer on the host is its own copy. -/
theorem Run.copies_host {pre : Run → Prop} {rel : Run → Run → Prop} (same : ∀ r, pre r → rel r r)
    {b : Buffer} {words : Ciphertext} (host : b.payload = .host (.ciphertext words)) :
    Run.Copies pre rel b words := by
  intro r keeps
  have copy : r.resources.toHost b = (.ok (.ciphertext words), r.resources) := by
    simp [Resources.toHost, Buffer.hostValue?, host]
  rw [copy]
  exact ⟨rfl, same r keeps⟩

/-- The words of buffers, wherever they are. -/
theorem ensures_hostCiphertexts {pre : Run → Prop} {rel : Run → Run → Prop} {bs : List Buffer}
    {words : List Ciphertext} (copies : List.Forall₂ (Run.Copies pre rel) bs words) :
    (hostCiphertexts bs).Ensures pre rel (· = words) bad := by
  induction copies with
  | nil => exact .pure rfl
  | @cons b w bs words first rest ih =>
      refine .bind (P := (· = .ciphertext w)) (.tryResources fun r keeps => ?_) ?_
      · obtain ⟨copied, across⟩ := first r keeps
        rw [copied]
        exact ⟨across, rfl⟩
      · rintro v rfl
        exact .bind ih fun ws same => .pure (congrArg (w :: ·) same)

theorem direct_hostCiphertexts (bs : List Buffer) : (hostCiphertexts bs).Direct := by
  induction bs with
  | nil => exact .pure
  | cons b rest ih =>
      refine .bind .tryResources fun v => ?_
      cases v with
      | ciphertext words => exact .bind ih fun _ => .pure
      | cleartext number => exact .ofExcept
      | simulated s => exact .ofExcept

end Read

/-! ## the processor -/

/-- The results that a node may come to on the processor when its keys are handed out as `handed`
allows: its partitions may be unknown or not valid; otherwise the operation runs. -/
inductive Node.Computes (e : Environment) (handed : Partition → KeySet → Prop) (n : Node)
    (words : List Ciphertext) : Except RunError Ciphertext → Prop
  | unknown {err : RunError} (h : e.partition n.partition = .error err) :
      n.Computes e handed words (.error err)
  | unknownSource {err : RunError} (h : sourcePartition e n = .error err) :
      n.Computes e handed words (.error err)
  | refused {q : Partition} {err : KeyError} (known : q ∈ e.partitions.partitions)
      (h : q.validate = .error err) : n.Computes e handed words (.error (.ofKey err))
  | ran {q : Partition} {source : Option Partition} {output : KeySet} {input : Option KeySet}
      (h : e.partition n.partition = .ok q) (hs : sourcePartition e n = .ok source)
      (handedOutput : handed q output) (handedInput : Option.Rel handed source input) :
      n.Computes e handed words
        ((Primitive.run n.op words ⟨output, input⟩ (nodeNonce n.id words)).mapError (nodeFailure n))

/-- The keys of the partitions in use are handed out as `handed` allows. -/
def Environment.HandsOut (e : Environment) (handed : Partition → KeySet → Prop) (r : Resources) :
    Prop :=
  r.keys.Answers e.partitions e.seed handed

theorem Environment.mem_of_partition {e : Environment} {id : PartitionId} {q : Partition}
    (h : e.partition id = .ok q) : q ∈ e.partitions.partitions := by
  unfold Environment.partition at h
  cases found : e.partitions.get? id with
  | none => simp [found] at h
  | some q' =>
      simp only [found, Except.ok.injEq] at h
      rw [← h]
      exact Array.mem_of_getElem? found

theorem mem_of_sourcePartition {e : Environment} {n : Node} {q : Partition}
    (h : sourcePartition e n = .ok (some q)) : q ∈ e.partitions.partitions := by
  unfold sourcePartition at h
  split at h
  · rename_i source _
    cases found : e.partition source with
    | error err => simp [found, Except.map] at h
    | ok q' =>
        simp only [found, Except.map, Except.ok.injEq, Option.some.injEq] at h
        rw [← h]
        exact Environment.mem_of_partition found
  · simp at h

section Processor

variable {e : Environment} {p : Plan} {n : Node} {handed : Partition → KeySet → Prop}
  {words : List Ciphertext}

/-- Keys are handed out, and fetching them changes the state along a relation. -/
structure Run.Fetches (e : Environment) (handed : Partition → KeySet → Prop) (pre : Run → Prop)
    (rel : Run → Run → Prop) : Prop where
  hands : ∀ r, pre r → e.HandsOut handed r.resources
  across : ∀ r keys, pre r → e.HandsOut handed { r.resources with keys } →
    rel r { r with resources := { r.resources with keys } }

variable {pre : Run → Prop} {rel : Run → Run → Prop}

theorem ensures_fetchKeys {q : Partition} (known : q ∈ e.partitions.partitions)
    (fetches : Run.Fetches e handed pre rel) :
    (NodeJob.tryResources (Resources.fetchKeys q e.seed)).Ensures pre rel (handed q)
      (fun err => n.Computes e handed words (.error err)) := by
  refine .tryResources fun r keeps => ?_
  obtain ⟨answer, others⟩ := (fetches.hands r keeps).getOrCreate known
  refine ⟨fetches.across r _ keeps others, ?_⟩
  simp only [Resources.fetchKeys]
  cases result : (r.resources.keys.getOrCreate q e.seed).1 with
  | ok shared => exact answer shared result
  | error err => exact .refused known (KeyCache.getOrCreate_error result)

/-- A node gets keys of its own partition, and of the one that it starts from. -/
theorem ensures_keysFor {q : Partition} (h : e.partition n.partition = .ok q)
    (fetches : Run.Fetches e handed pre rel) :
    (keysFor e n q).Ensures pre rel
      (fun k => handed q k.output ∧
        ∃ source, sourcePartition e n = .ok source ∧ Option.Rel handed source k.input)
      (fun err => n.Computes e handed words (.error err)) := by
  refine .bind (ensures_fetchKeys (Environment.mem_of_partition h) fetches) fun output own => ?_
  refine .bind (P := fun source => sourcePartition e n = .ok source) (.ofExcept ?_) ?_
  · cases result : sourcePartition e n with
    | ok source => exact rfl
    | error err => exact .unknownSource result
  · intro source found
    cases source with
    | none => exact .pure ⟨own, none, found, .none⟩
    | some source =>
        refine .bind (ensures_fetchKeys (mem_of_sourcePartition found) fetches) ?_
        exact fun input other => .pure ⟨own, some source, found, .some other⟩

/-- The reference arithmetic gives what it computes. -/
theorem ensures_reference {keys : OperationKeys}
    (reference : e.primitives = .reference) {nonce : UInt64} {good : Ciphertext → Prop}
    {bad : RunError → Prop}
    (h : Settles good bad ((Primitive.run n.op words keys nonce).mapError (nodeFailure n))) :
    (NodeJob.ofOutcome n ((e.primitives.run n.op words keys nonce).mapError
      (nodeFailure n))).Ensures pre rel good bad := by
  rw [reference]
  simp only [Primitives.reference]
  cases result : Primitive.run n.op words keys nonce with
  | ok ct =>
      rw [result] at h
      exact .ofExcept h
  | error err =>
      rw [result] at h
      exact .ofExcept h

/-- A node on the processor comes to one of its results. -/
theorem ensures_runOnProcessor {q : Partition} {bs : List Buffer}
    (reference : e.primitives = .reference) (h : e.partition n.partition = .ok q)
    (fetches : Run.Fetches e handed pre rel)
    (copies : List.Forall₂ (Run.Copies pre rel) bs words) :
    (runOnProcessor e n q bs).Ensures pre rel
      (fun payload => ∃ ct, payload = .host (.ciphertext ct) ∧ n.Computes e handed words (.ok ct))
      (fun err => n.Computes e handed words (.error err)) := by
  refine .bind (ensures_hostCiphertexts copies) ?_
  rintro ws rfl
  refine .bind (ensures_keysFor h fetches) ?_
  rintro ⟨output, input⟩ ⟨own, source, found, other⟩
  refine .bind (P := fun _ => True) (.tell trivial) fun _ _ => ?_
  have ran : n.Computes e handed ws _ := .ran h found own other
  refine .bind (P := fun ct => n.Computes e handed ws (.ok ct)) ?_ ?_
  · exact ensures_reference reference (Settles.of ran)
  · exact fun ct computed => .pure ⟨ct, rfl, computed⟩

theorem direct_keysFor (q : Partition) : (keysFor e n q).Direct := by
  refine .bind .tryResources fun output => .bind .ofExcept fun source => ?_
  cases source with
  | none => exact .pure
  | some source => exact .bind .tryResources fun _ => .pure

theorem direct_runOnProcessor (q : Partition) (bs : List Buffer) :
    (runOnProcessor e n q bs).Direct :=
  .bind (direct_hostCiphertexts bs) fun _ => .bind (direct_keysFor q) fun _ =>
    .bind .tell fun _ => .bind .ofOutcome fun _ => .pure

end Processor

/-! ## stand-ins -/

/-- The result of a node on stand-ins. -/
def Node.simulate (e : Environment) (n : Node) (stand : List Simulated) :
    Except RunError Simulated := do
  let q ← e.partition n.partition
  let source ← e.partition n.inputPartition
  match Simulation.run n stand q source with
  | .done s => .ok s
  | .failed err => .error err
  | .crashed text =>
    let reason := text.getD "unknown panic"
    .error (.nodeExecution n.id s!"panicked: {reason}")

section Simulated

variable {e : Environment} {n : Node} {stand : List Simulated} {bad : RunError → Prop}
  {pre : Run → Prop} {rel : Run → Run → Prop}

/-- The stand-ins of buffers on the host. -/
theorem ensures_standIns {bs : List Buffer}
    (host : List.Forall₂ (fun b s => b.payload = .host (.simulated s)) bs stand) :
    NodeJob.Ensures pre rel (· = stand) bad (bs.mapM fun b =>
      match b.hostValue? with
      | some (.simulated s) => pure s
      | other => .ofExcept (.error (.valueKind b.value "simulated"
          (other.elim "device-resident" Value.kind)))) := by
  induction host with
  | nil => exact .pure rfl
  | @cons b s bs stand first rest ih =>
      have held : b.hostValue? = some (.simulated s) := by simp [Buffer.hostValue?, first]
      rw [List.mapM_cons]
      refine .bind (P := (· = s)) ?_ ?_
      · rw [held]
        exact .pure rfl
      · rintro s' rfl
        exact .bind ih fun others same => .pure (congrArg (s' :: ·) same)

/-- A node on stand-ins comes to its result. -/
theorem ensures_runSimulated {q : Partition} {bs : List Buffer} (h : e.partition n.partition = .ok q)
    (host : List.Forall₂ (fun b s => b.payload = .host (.simulated s)) bs stand) :
    (runSimulated e n q bs).Ensures pre rel
      (fun payload => ∃ s, payload = .host (.simulated s) ∧ n.simulate e stand = .ok s)
      (fun err => n.simulate e stand = .error err) := by
  refine .bind (ensures_standIns host) ?_
  rintro ss rfl
  refine .bind (P := fun source => e.partition n.inputPartition = .ok source) (.ofExcept ?_) ?_
  · cases result : e.partition n.inputPartition with
    | ok source => exact rfl
    | error err => simp [Settles, Node.simulate, h, result, bind, Except.bind]
  · intro source found
    refine .bind (P := fun s => n.simulate e ss = .ok s) ?_ ?_
    · cases result : Simulation.run n ss q source with
      | done s =>
          exact .ofExcept (by simp [Settles, Node.simulate, h, found, result, bind, Except.bind])
      | failed err =>
          exact .ofExcept (by simp [Settles, Node.simulate, h, found, result, bind, Except.bind])
      | crashed text =>
          exact .ofExcept (by simp [Settles, Node.simulate, h, found, result, bind, Except.bind])
    · exact fun s computed => .pure ⟨s, rfl, computed⟩

theorem direct_runSimulated (q : Partition) (bs : List Buffer) : (runSimulated e n q bs).Direct := by
  refine .bind ?_ fun _ => .bind .ofExcept fun _ => .bind .ofOutcome fun _ => .pure
  induction bs with
  | nil => exact .pure
  | cons b rest ih =>
      rw [List.mapM_cons]
      refine .bind ?_ fun _ => .bind ih fun _ => .pure
      split
      · exact .pure
      · exact .ofExcept

end Simulated

/-! ## backends as disciplines -/

/-- A slot holds values of one kind, with a content that fits the slot. -/
def Holding {α : Type} (make : α → Value) (fits : Nat → α → Prop) (slot : Nat) (v : Value) : Prop :=
  ∃ a, v = make a ∧ fits slot a

/-- The contents of buffers that were read. -/
theorem exists_contents {α : Type} {make : α → Value} {fits : Nat → α → Prop} {slots : List Nat}
    {bs : List Buffer}
    (read : List.Forall₂ (fun slot b => ∃ v, b.payload = .host v ∧ Holding make fits slot v) slots
      bs) :
    ∃ contents, List.Forall₂ fits slots contents ∧
      List.Forall₂ (fun b a => b.payload = .host (make a)) bs contents := by
  induction read with
  | nil => exact ⟨[], .nil, .nil⟩
  | cons first rest ih =>
      obtain ⟨v, host, a, rfl, fit⟩ := first
      obtain ⟨contents, fits, hosts⟩ := ih
      exact ⟨a :: contents, .cons fit fits, .cons host hosts⟩

section Perform

variable {e : Environment} {p : Plan} {i : Nat} {kept : Resources → Prop} {α : Type}
  {make : α → Value} {fits : Nat → α → Prop} {bad : RunError → Prop}

/-- A node reads its inputs, and what its backend gives is its output. -/
theorem ensures_perform
    (unknown : ∀ err, e.partition (p.graph.node i).partition = .error err → bad err)
    (backend : ∀ q bs contents, e.partition (p.graph.node i).partition = .ok q →
      List.Forall₂ fits (p.graph.inputsOf i) contents →
      List.Forall₂ (fun b a => b.payload = .host (make a)) bs contents →
      (runOn e p (choose (p.graph.node i) e.mode p.accelerating
        (p.worker? (p.graph.node i))).target i (p.graph.node i) q bs).Ensures
        (Run.Supplied kept (Holding make fits) p.graph i) (Run.Keeps kept)
        (fun ran => Settles
          (fun payload => ∃ a, payload = .host (make a) ∧ fits (p.graph.outputSlot i) a) bad ran.1)) :
    (perform e p i).Ensures (Run.Supplied kept (Holding make fits) p.graph i) (Run.Keeps kept)
      (Performed.Fits p (Holding make fits) (fun _ => bad) i) := by
  dsimp only [perform]
  cases known : e.partition (p.graph.node i).partition with
  | error err => exact ⟨rfl, unknown err known⟩
  | ok q =>
      refine Job.Ensures.bind (ensures_readInputs fun slot mem => mem) ?_
      intro inputs read
      cases inputs with
      | error err => exact read.elim
      | ok bs =>
          obtain ⟨contents, fit, hosts⟩ := exists_contents read
          refine Job.Ensures.bind (backend q bs contents known fit hosts) ?_
          rintro ⟨payload, placement, fellBack⟩ settles
          refine ⟨rfl, ?_⟩
          cases payload with
          | error err => exact settles
          | ok payload =>
              obtain ⟨a, rfl, fit'⟩ := settles
              exact ⟨make a, rfl, a, rfl, fit'⟩

theorem direct_perform
    (backend : ∀ q bs, (runOn e p (choose (p.graph.node i) e.mode p.accelerating
      (p.worker? (p.graph.node i))).target i (p.graph.node i) q bs).Direct) :
    (perform e p i).Direct := by
  dsimp only [perform]
  cases e.partition (p.graph.node i).partition with
  | error err => exact trivial
  | ok q =>
      refine Job.Direct.bind (direct_readInputs _) fun inputs => ?_
      cases inputs with
      | error err => exact trivial
      | ok bs => exact Job.Direct.bind (backend q bs) fun _ => trivial

end Perform

section Backends

variable {e : Environment} {p : Plan}

/-- The processor as a backend: each node comes to one of its results on what it has read. -/
def Discipline.processor (mode : e.mode = .cpu) (reference : e.primitives = .reference)
    (home : p.options.assignment = []) (handed : Partition → KeySet → Prop)
    (fits : Nat → Ciphertext → Prop) (bad : Nat → RunError → Prop)
    (unknown : ∀ i, p.isLive i = true →
      ∀ err, e.partition (p.graph.node i).partition = .error err → bad i err)
    (step : ∀ i, p.isLive i = true → ∀ words, List.Forall₂ fits (p.graph.inputsOf i) words →
      ∀ result, (p.graph.node i).Computes e handed words result →
        Settles (fits (p.graph.outputSlot i)) (bad i) result) :
    Discipline e p where
  kept := e.HandsOut handed
  good := Holding .ciphertext fits
  bad := bad
  withCancellation _ _ kept := kept
  announce _ _ kept := kept
  drop _ _ kept := kept
  perform i alive := by
    refine ensures_perform (unknown i alive) fun q bs words known fit hosts => ?_
    have target : choose (p.graph.node i) e.mode p.accelerating (p.worker? (p.graph.node i)) =
        ⟨.cpu, "CPU mode"⟩ := by simp [choose, mode, Plan.worker?, home]
    rw [target]
    have fetches : Run.Fetches e handed
        (Run.Supplied (e.HandsOut handed) (Holding .ciphertext fits) p.graph i)
        (Run.Keeps (e.HandsOut handed)) := ⟨fun r h => h.1, fun r keys _ others => ⟨others, rfl⟩⟩
    have copies : List.Forall₂ (Run.Copies
        (Run.Supplied (e.HandsOut handed) (Holding .ciphertext fits) p.graph i)
        (Run.Keeps (e.HandsOut handed))) bs words :=
      hosts.imp fun b w => Run.copies_host fun r h => ⟨h.1, rfl⟩
    refine Job.Ensures.bind (ensures_runOnProcessor reference known fetches copies) ?_
    intro result settles
    cases result with
    | ok payload =>
        obtain ⟨ct, rfl, computed⟩ := settles
        exact ⟨ct, rfl, step i alive words fit _ computed⟩
    | error err => exact step i alive words fit _ settles
  direct i _ := by
    refine direct_perform fun q bs => ?_
    have target : choose (p.graph.node i) e.mode p.accelerating (p.worker? (p.graph.node i)) =
        ⟨.cpu, "CPU mode"⟩ := by simp [choose, mode, Plan.worker?, home]
    rw [target]
    exact Job.Direct.bind (direct_runOnProcessor q bs) fun _ => trivial

/-- Stand-ins as a backend: each node comes to its result on what it has read. -/
def Discipline.simulation (mode : e.mode = .simulation) (fits : Nat → Simulated → Prop)
    (bad : Nat → RunError → Prop)
    (unknown : ∀ i, p.isLive i = true →
      ∀ err, e.partition (p.graph.node i).partition = .error err → bad i err)
    (step : ∀ i, p.isLive i = true → ∀ stand, List.Forall₂ fits (p.graph.inputsOf i) stand →
      Settles (fits (p.graph.outputSlot i)) (bad i) ((p.graph.node i).simulate e stand)) :
    Discipline e p where
  kept _ := True
  good := Holding .simulated fits
  bad := bad
  withCancellation _ _ kept := kept
  announce _ _ kept := kept
  drop _ _ kept := kept
  perform i alive := by
    refine ensures_perform (unknown i alive) fun q bs stand known fit hosts => ?_
    have target : choose (p.graph.node i) e.mode p.accelerating (p.worker? (p.graph.node i)) =
        ⟨.simulation, "simulation mode"⟩ := by simp [choose, mode]
    rw [target]
    refine Job.Ensures.bind (ensures_runSimulated known hosts) ?_
    intro result settles
    have settled := step i alive stand fit
    cases result with
    | ok payload =>
        obtain ⟨s, rfl, computed⟩ := settles
        rw [computed] at settled
        exact ⟨s, rfl, settled⟩
    | error err =>
        have failed : (p.graph.node i).simulate e stand = .error err := settles
        rw [failed] at settled
        exact settled
  direct i _ := by
    refine direct_perform fun q bs => ?_
    have target : choose (p.graph.node i) e.mode p.accelerating (p.worker? (p.graph.node i)) =
        ⟨.simulation, "simulation mode"⟩ := by simp [choose, mode]
    rw [target]
    exact Job.Direct.bind (direct_runSimulated q bs) fun _ => trivial

end Backends

end HomCircuit
