import HomCircuit.Proofs.Graph.Liveness
import HomCircuit.Proofs.Program.Fallback

/-!
# HomCircuit.Proofs.Program.Residues

What a call on stand-ins makes of the shadows that it is given.

```
an operation    reads residues by the modulus of its own partition, and gives a residue
the identity    passes a shadow on as it is
```

A shadow that was supplied is read by the modulus of its own partition, and by that of a partition to
which it is changed, directly or through copies. So two vectors of stand-ins that agree modulo all of
these come to the same messages, and by moduli that are powers of two it is the wider ones that matter.

* `Graph.ReadIn` — the partitions by whose moduli a value is read;
* `Graph.Simulates.congruent` — values that agree by all of them, throughout a graph;
* `Program.simulation_reads_residues` — two calls of a program on stand-ins.
-/

namespace HomCircuit

open Simulation (Congruent)

/-! ## one node -/

section Node

variable {e e' : Environment} {n : Node} {stand stand' : List Simulated} {s : Simulated}

/-- The identity passes its only input on. -/
theorem Node.simulate_identity (op : n.op = .identity) (made : n.simulate e stand = .ok s) :
    stand = [s] := by
  obtain ⟨q, known, made⟩ := Except.exists_of_bind made
  obtain ⟨source, foreign, made⟩ := Except.exists_of_bind made
  simp only [Simulation.run, op, Operation.arity] at made
  split at made
  · next done =>
      split at done
      · contradiction
      · next arity =>
          obtain ⟨a, rfl⟩ := List.length_eq_one_iff.mp (not_not.mp arity)
          obtain rfl := Outcome.done.inj done
          obtain rfl := Except.ok.inj made
          rfl
  · contradiction
  · contradiction

/-- Any other operation reads residues by the modulus of its own partition. -/
theorem Node.simulate_congr {q : Partition} (valid : q.Valid)
    (partitions : e'.partitions = e.partitions) (known : e.partition n.partition = .ok q)
    (reduces : n.op ≠ .identity)
    (alike : List.Forall₂ (Congruent q.plaintextModulus) stand stand') :
    n.simulate e' stand' = n.simulate e stand := by
  have same (id : PartitionId) : e'.partition id = e.partition id := by
    simp only [Environment.partition, partitions]
  cases foreign : e.partition n.inputPartition with
  | error err => simp only [Node.simulate, same, known, foreign, Bind.bind, Except.bind]
  | ok source =>
      have ran : Simulation.run n stand q source = Simulation.run n stand' q source :=
        Simulation.run_congr valid reduces alike
      simp only [Node.simulate, same, known, foreign, Bind.bind, Except.bind, ran]

end Node

/-! ## a graph -/

/-- The partitions by whose moduli a value is read in a part of the nodes of a graph: its own, that of a
node that reads it, and those of copies that are made of it. -/
inductive Graph.ReadIn (g : Graph) (part : Node → Prop) : ValueId → PartitionId → Prop
  | own {v : ValueId} {slot : Nat} (place : g.slot? v = some slot) :
      ReadIn g part v (g.slotPartition slot)
  | node {n : Node} {v : ValueId} (known : n ∈ g.nodes) (takes : part n) (reads : v ∈ n.inputs) :
      ReadIn g part v n.partition
  | copy {n : Node} {v : ValueId} {id : PartitionId} (known : n ∈ g.nodes) (takes : part n)
      (identity : n.op = .identity) (reads : v ∈ n.inputs) (later : ReadIn g part n.output id) :
      ReadIn g part v id

/-- Stand-ins that agree by all moduli by which a value is read. -/
def Environment.Alike (e : Environment) (g : Graph) (part : Node → Prop) (v : ValueId)
    (s t : Simulated) : Prop :=
  ∀ id q, g.ReadIn part v id → e.partition id = .ok q → Congruent q.plaintextModulus s t

section Graph

variable {e e' : Environment} {g : Graph} {part : Node → Prop}

/-- A node gives stand-ins that are alike of inputs that are. -/
theorem Environment.Covers.alike_output (covers : e.Covers g) (partitions : e'.partitions = e.partitions)
    {n : Node} (known : n ∈ g.nodes) (takes : part n) {stand stand' : List Simulated}
    (inputs : List.Forall₂ (fun s t => ∃ v ∈ n.inputs, e.Alike g part v s t) stand stand')
    {s t : Simulated} (made : n.simulate e stand = .ok s) (made' : n.simulate e' stand' = .ok t) :
    e.Alike g part n.output s t := by
  by_cases op : n.op = .identity
  · obtain rfl := Node.simulate_identity op made
    obtain rfl := Node.simulate_identity op made'
    obtain ⟨⟨v, reads, alike⟩, -⟩ := List.forall₂_cons.mp inputs
    exact fun id q read => alike id q (.copy known takes op reads read)
  · obtain ⟨i, inside, rfl⟩ := Graph.exists_node_eq known
    obtain ⟨q, partition⟩ := covers.partition i inside
    have valid := covers.valid q (Environment.mem_of_partition partition)
    have residues : List.Forall₂ (Congruent q.plaintextModulus) stand stand' :=
      inputs.imp fun s t ⟨v, reads, alike⟩ => alike _ q (.node known takes reads) partition
    rw [Node.simulate_congr valid partitions partition op residues, made] at made'
    obtain rfl := Except.ok.inj made'
    exact fun _ _ _ _ => ⟨rfl, rfl⟩

/-- Two evaluations on stand-ins whose arguments are alike are alike in all values that need a part of the
nodes alone. -/
theorem Graph.Simulates.congruent (covers : e.Covers g) (w : g.Wired)
    (partitions : e'.partitions = e.partitions) {supplied supplied' : List (ValueId × Value)}
    (closed : ∀ n ∈ g.nodes, ∀ m ∈ g.nodes, part m → n.output ∈ m.inputs → part n)
    (arguments : ∀ input ∈ g.arguments, ∀ s t,
      Run.argument e supplied input.1 input.2 = .ok (.ofHost input.1 input.2 (.simulated s)) →
      Run.argument e' supplied' input.1 input.2 = .ok (.ofHost input.1 input.2 (.simulated t)) →
        e.Alike g part input.1 s t)
    {v : ValueId} {s t : Simulated} (h : g.Simulates e supplied v s)
    (h' : g.Simulates e' supplied' v t) (need : ∀ n ∈ g.nodes, n.output = v → part n) :
    e.Alike g part v s t :=
  Denotes.related w closed arguments
    (fun _ known takes _ _ _ _ inputs made made' =>
      covers.alike_output partitions known takes inputs made made') h h' need

end Graph

/-! ## two calls of a program -/

namespace Program

variable {p : Program} {inputs inputs' : List Value}

/-- The nodes that take part in a call: with elision those from which a value asked for is reachable. -/
def Takes (p : Program) (o : CallChoice) (c : Context) (n : Node) : Prop :=
  c.options.elide = true → p.graph.Contributes (p.wanted o) n

/-- Two vectors of stand-ins that agree in their variances and, by the modulus of the partition of each
input, in their shadows. -/
structure Alike (p : Program) (inputs inputs' : List Value) : Prop where
  count : inputs'.length = inputs.length
  standIns : ∀ (k : Nat) (x x' : Value), inputs[k]? = some x → inputs'[k]? = some x' →
    ∃ s t, x = .simulated s ∧ x' = .simulated t ∧ ∀ input q, p.inputs[k]? = some input →
      p.partitions.get? input.2 = some q → Congruent q.plaintextModulus s t

/-- The shadows of such vectors agree by wider moduli, too, wherever a part of the nodes reads inputs in
other partitions than their own. -/
def AlikeAbroad (p : Program) (part : Node → Prop) (inputs inputs' : List Value) : Prop :=
  ∀ (k : Nat) (input : ValueId × PartitionId) (q : Partition) (s t : Simulated),
    p.inputs[k]? = some input → p.partitions.get? input.2 = some q →
    inputs[k]? = some (.simulated s) → inputs'[k]? = some (.simulated t) →
      ∀ id q', p.graph.ReadIn part input.1 id → p.partitions.get? id = some q' →
        q.plaintextModulus < q'.plaintextModulus →
          s.shadow % q'.plaintextModulus = t.shadow % q'.plaintextModulus

section Calls

variable {c d : Context} {o : CallChoice}

/-- With all nodes a node that feeds one that takes part takes part, too. -/
theorem takes_closed : ∀ n ∈ p.graph.nodes, ∀ m ∈ p.graph.nodes, p.Takes o c m →
    n.output ∈ m.inputs → p.Takes o c n :=
  fun _ known _ _ later edge elide => .read known (later elide) edge

/-- So does one that makes a value asked for. -/
theorem takes_wanted {v : ValueId} (asked : v ∈ p.wanted o) :
    ∀ n ∈ p.graph.nodes, n.output = v → p.Takes o c n :=
  fun _ known same _ => .asked known (same ▸ asked)

/-- A stand-in that is bound is the one that was supplied in its position. -/
theorem Checked.supplied_of_argument (checked : p.Checked) {e : Environment}
    (simulation : e.mode = .simulation) (count : inputs.length = p.inputs.length)
    (standIns : ∀ x ∈ inputs, ∃ s, x = Value.simulated s) {k : Nat} {input : ValueId × PartitionId}
    (declared : p.inputs[k]? = some input) {s : Simulated}
    (bound : Run.argument e (p.supply inputs) input.1 input.2 =
      .ok (.ofHost input.1 input.2 (.simulated s))) : inputs[k]? = some (Value.simulated s) := by
  have inside : k < inputs.length := by
    rw [count]
    exact (List.getElem?_eq_some_iff.mp declared).1
  obtain ⟨t, given⟩ := standIns _ (List.getElem_mem inside)
  have nodup := checked.wired.nodup_arguments
  rw [checked.arguments] at nodup
  have found := lookup_zip_getElem? nodup declared (List.getElem?_eq_getElem inside)
  obtain ⟨q, x, t', looked, -, made, same⟩ := Run.argument_standIn simulation bound
  obtain rfl : t' = s := by simpa [Buffer.ofHost] using same.symm
  rw [supply, found, given] at looked
  obtain rfl := Option.some.inj looked
  rw [List.getElem?_eq_getElem inside, given, Value.simulated.inj (Except.ok.inj made)]

/-- Stand-ins are no ciphertexts. -/
theorem plain_of_standIns (standIns : ∀ x ∈ inputs, ∃ s, x = Value.simulated s) :
    ∀ x ∈ inputs, x.ciphertext? = none := by
  intro x mem
  obtain ⟨s, rfl⟩ := standIns x mem
  rfl

theorem Alike.left (alike : p.Alike inputs inputs') : ∀ x ∈ inputs, ∃ s, x = Value.simulated s := by
  intro x mem
  obtain ⟨k, inside, rfl⟩ := List.getElem_of_mem mem
  have inside' : k < inputs'.length := by rwa [alike.count]
  obtain ⟨s, -, same, -⟩ := alike.standIns k _ _ (List.getElem?_eq_getElem inside)
    (List.getElem?_eq_getElem inside')
  exact ⟨s, same⟩

theorem Alike.right (alike : p.Alike inputs inputs') : ∀ x ∈ inputs', ∃ s, x = Value.simulated s := by
  intro x mem
  obtain ⟨k, inside, rfl⟩ := List.getElem_of_mem mem
  have inside' : k < inputs.length := by rwa [← alike.count]
  obtain ⟨-, t, -, same, -⟩ := alike.standIns k _ _ (List.getElem?_eq_getElem inside')
    (List.getElem?_eq_getElem inside)
  exact ⟨t, same⟩

/-- Inputs that are alike by the moduli of their partitions and by wider ones are alike by all by which
they are read. -/
theorem Checked.alike_arguments (checked : p.Checked) {e e' : Environment}
    (partitions : e.partitions = p.partitions) (simulation : e.mode = .simulation)
    (simulation' : e'.mode = .simulation) (count : inputs.length = p.inputs.length) {part : Node → Prop}
    (alike : p.Alike inputs inputs') (abroad : p.AlikeAbroad part inputs inputs') :
    ∀ input ∈ p.graph.arguments, ∀ s t,
      Run.argument e (p.supply inputs) input.1 input.2 =
        .ok (.ofHost input.1 input.2 (.simulated s)) →
      Run.argument e' (p.supply inputs') input.1 input.2 =
        .ok (.ofHost input.1 input.2 (.simulated t)) →
      e.Alike p.graph part input.1 s t := by
  intro input declared s t bound bound'
  replace declared : input ∈ p.inputs := checked.arguments ▸ Array.mem_toList_iff.mpr declared
  obtain ⟨q, known⟩ := checked.input_known input declared
  obtain ⟨k, found⟩ := List.mem_iff_getElem?.mp declared
  have given := checked.supplied_of_argument simulation count alike.left found bound
  have given' := checked.supplied_of_argument simulation' (alike.count.trans count) alike.right found
    bound'
  obtain ⟨s', t', same, same', residues⟩ := alike.standIns k _ _ given given'
  obtain rfl := Value.simulated.inj same
  obtain rfl := Value.simulated.inj same'
  have own := residues input q found known
  intro id q' read partition
  have known' := Environment.get?_of_partition partition
  rw [partitions] at known'
  have valid := checked.sane.valid q (Registry.mem_of_get? known)
  have valid' := checked.sane.valid q' (Registry.mem_of_get? known')
  by_cases wider : q.plaintextModulus < q'.plaintextModulus
  · exact ⟨own.variance, abroad k input q s t found known given given' id q' read known' wider⟩
  · exact own.of_le valid valid' (UInt64.not_lt.mp wider)

/-- So are the values that are asked for. -/
theorem Checked.simulated_alike (checked : p.Checked) (simulation : c.mode = .simulation)
    (simulation' : d.mode = .simulation) (count : inputs.length = p.inputs.length)
    (alike : p.Alike inputs inputs') (abroad : p.AlikeAbroad (p.Takes o c) inputs inputs')
    {v : ValueId} (asked : v ∈ p.wanted o) {s t : Simulated} (h : p.Simulates inputs c v s)
    (h' : p.Simulates inputs' d v t) :
    (c.environment p.partitions default).Alike p.graph (p.Takes o c) v s t := by
  have arguments := checked.alike_arguments (e := c.environment p.partitions default) rfl simulation
    (show (d.environment p.partitions default).mode = .simulation from simulation') count alike abroad
  exact h.congruent (checked.covers rfl) checked.wired
    (show (d.environment p.partitions default).partitions = p.partitions from rfl) takes_closed
    arguments h' (takes_wanted asked)

/-- A stand-in decrypts to the residue of its shadow by the modulus of its partition. -/
theorem decryptValue_residue {v : ValueId} {slot : Nat} {q : Partition}
    (place : p.graph.slot? v = some slot)
    (known : p.partitions.get? (p.graph.slotPartition slot) = some q) (s : Simulated) (c : Context) :
    p.decryptValue v (.simulated s) c = (.ok (s.shadow % q.plaintextModulus), c) := by
  simp only [decryptValue, place, partition, known]

/-- The message that a value on stand-ins decrypts to. -/
def Residue (p : Program) (inputs : List Value) (c : Context) (v : ValueId) (m : UInt64) : Prop :=
  ∃ slot q s, p.graph.slot? v = some slot ∧
    p.partitions.get? (p.graph.slotPartition slot) = some q ∧ p.Simulates inputs c v s ∧
    m = s.shadow % q.plaintextModulus

/-- Stand-ins that values come to decrypt to their messages in any context. -/
theorem decryptAll_residues {ids : List ValueId} {xs : List Value}
    (placed : ∀ v ∈ ids, ∃ slot q, p.graph.slot? v = some slot ∧
      p.partitions.get? (p.graph.slotPartition slot) = some q)
    (simulated : List.Forall₂ (fun v x => ∃ s, x = .simulated s ∧ p.Simulates inputs c v s) ids xs)
    (c' : Context) :
    ∃ ms, (p.decryptAll (ids.zip xs) c').1 = .ok ms ∧ List.Forall₂ (p.Residue inputs c) ids ms := by
  have members := (List.forall₂_and_left (p := (· ∈ ids)) ids xs).mpr ⟨fun v mem => mem, simulated⟩
  have each : List.Forall₂ (fun v x => ∃ m, p.Residue inputs c v m ∧
      ∀ c, True → ∃ c', p.decryptValue v x c = (.ok m, c') ∧ True) ids xs := by
    refine members.imp ?_
    rintro v x ⟨mem, s, rfl, simulates⟩
    obtain ⟨slot, q, place, known⟩ := placed v mem
    exact ⟨_, ⟨slot, q, s, place, known, simulates, rfl⟩,
      fun c _ => ⟨c, decryptValue_residue place known s c, trivial⟩⟩
  obtain ⟨ms, c'', decrypted, told⟩ := decryptAll_ok each (c := c') trivial
  exact ⟨ms, by rw [decrypted], told⟩

/-- Values asked for in a call that was planned are placed in slots with a partition. -/
theorem Checked.placed (checked : p.Checked) {s : CallOptions} {plan : Plan}
    (prepared : Plan.prepare p.graph s false = .ok plan) :
    ∀ v ∈ s.requested, ∃ slot q, p.graph.slot? v = some slot ∧
      p.partitions.get? (p.graph.slotPartition slot) = some q := by
  intro v mem
  obtain ⟨sound, graph, rfl⟩ := Plan.sound_of_prepare checked.wired prepared
  obtain ⟨found, there, rfl⟩ := List.mem_map.mp (sound.asked v mem)
  have place := sound.slots found there
  rw [graph] at place
  obtain ⟨q, known⟩ := (checked.covers (e := { (default : Environment) with
    partitions := p.partitions }) rfl).slot checked.wired (Graph.valueAt_of_slot? place).1
  exact ⟨found.2, q, place, Environment.get?_of_partition known⟩

/-- Values that are alike by the moduli of their slots decrypt to the same messages. -/
theorem decryptAll_alike {ids : List ValueId} {xs xs' : List Value}
    (simulated : List.Forall₂ (fun v x => ∃ s, x = .simulated s ∧ p.Simulates inputs c v s) ids xs)
    (simulated' : List.Forall₂ (fun v x => ∃ s, x = .simulated s ∧ p.Simulates inputs' d v s) ids xs')
    (placed : ∀ v ∈ ids, ∃ slot q, p.graph.slot? v = some slot ∧
      p.partitions.get? (p.graph.slotPartition slot) = some q)
    (alike : ∀ v ∈ ids, ∀ s t, p.Simulates inputs c v s → p.Simulates inputs' d v t →
      ∀ slot q, p.graph.slot? v = some slot →
        p.partitions.get? (p.graph.slotPartition slot) = some q → Congruent q.plaintextModulus s t) :
    List.Forall₂ (fun x x' => ∃ s t, x = .simulated s ∧ x' = .simulated t ∧ s.variance = t.variance)
      xs xs' ∧
    ∀ c' d', ∃ messages, (p.decryptAll (ids.zip xs) c').1 = .ok messages ∧
      (p.decryptAll (ids.zip xs') d').1 = .ok messages := by
  refine ⟨?_, fun c' d' => ?_⟩
  · refine Graph.forall₂_of_common simulated simulated' ?_
    rintro v x x' mem ⟨s, rfl, simulates⟩ ⟨t, rfl, simulates'⟩
    obtain ⟨slot, q, place, known⟩ := placed v mem
    exact ⟨s, t, rfl, rfl, (alike v mem s t simulates simulates' slot q place known).variance⟩
  · obtain ⟨ms, decrypted, told⟩ := decryptAll_residues placed simulated c'
    obtain ⟨ms', decrypted', told'⟩ := decryptAll_residues placed simulated' d'
    have same : List.Forall₂ (· = ·) ms ms' := by
      refine Graph.forall₂_of_common told told' ?_
      rintro v _ _ mem ⟨slot, q, s, place, known, simulates, rfl⟩ ⟨slot', q', t, place', known',
        simulates', rfl⟩
      obtain rfl := Option.some.inj (place.symm.trans place')
      obtain rfl := Option.some.inj (known.symm.trans known')
      exact (alike v mem s t simulates simulates' slot q place known).shadow
    rw [List.forall₂_eq_eq_eq] at same
    subst same
    exact ⟨ms, decrypted, decrypted'⟩

/-- Two calls of a loaded program on stand-ins, for the same values and with the same elision, on whatever
assignment to remote workers and in any interleavings. If the stand-ins of one are alike those of the other,
and also by the wider moduli by which the nodes that take part read them, then unless a call was cancelled
both succeed or neither does, and values that both give have the same noise and the same messages. -/
theorem simulation_reads_residues {artifact : Artifact} (loaded : load artifact = .ok p)
    (simulation : c.mode = .simulation) (simulation' : d.mode = .simulation) (shut : d.shut = c.shut)
    (elide : d.options.elide = c.options.elide)
    (remotes : d.resources.remotes.length = c.resources.remotes.length) {o' : CallChoice}
    (outputs : o'.outputs = o.outputs) (assignment : o'.assignment = o.assignment)
    (alike : p.Alike inputs inputs') (abroad : p.AlikeAbroad (p.Takes o c) inputs inputs')
    {r r' : Except RunError (List Value) × Trace × Context} (h : p.MayCall inputs o c r)
    (h' : p.MayCall inputs' o' d r') :
    -- the same calls succeed, and the same fail by a node
    (¬WasCancelled r.1 → ¬WasCancelled r'.1 →
      ((∃ xs, r.1 = .ok xs) ↔ ∃ xs', r'.1 = .ok xs') ∧ (NodeFailed r.1 ↔ NodeFailed r'.1)) ∧
    -- where both succeed, they agree on the noise and on the messages
    ∀ xs xs', r.1 = .ok xs → r'.1 = .ok xs' →
      List.Forall₂ (fun x x' => ∃ s t, x = .simulated s ∧ x' = .simulated t ∧
        s.variance = t.variance) xs xs' ∧
      ∀ c' d', ∃ messages, (p.decryptAll ((p.wanted o).zip xs) c').1 = .ok messages ∧
        (p.decryptAll ((p.wanted o).zip xs') d').1 = .ok messages ∧
        (o.outputs = none → (p.decryptOutputs xs c').1 = .ok messages ∧
          (p.decryptOutputs xs' d').1 = .ok messages) := by
  have checked := checked_of_load loaded
  have host : c.mode ≠ .accelerator := by simp [simulation]
  have host' : d.mode ≠ .accelerator := by simp [simulation']
  have wanted : p.wanted o' = p.wanted o := by rw [Program.wanted, outputs, Program.wanted]
  have refusal : p.refusal? inputs'.length o' d = p.refusal? inputs.length o c := by
    rw [alike.count, refusal?_congr outputs (by rw [assignment, remotes]) shut]
  rcases h.refused_or_ran host with ⟨err, refused, failed⟩ |
    ⟨accepted, count, plan, t, cancellation, workers, a, prepared, returns, rfl⟩
  · rcases h'.refused_or_ran host' with ⟨err', refused', failed'⟩ | ⟨accepted', -⟩
    · refine ⟨fun _ _ => ⟨?_, iff_of_false (refusal?_ends refused _ failed).1
        (refusal?_ends refused' _ failed').1⟩, fun xs _ ok => ?_⟩
      · simp [failed, failed']
      · rw [failed] at ok
        contradiction
    · rw [refusal, refused] at accepted'
      contradiction
  · rcases h'.refused_or_ran host' with ⟨err', refused', failed'⟩ |
      ⟨accepted', count', plan', t', cancellation', workers', a', prepared', returns', rfl⟩
    · rw [refusal, accepted] at refused'
      contradiction
    · obtain ⟨ends, picked⟩ := checked.picks_simulated (p.wanted o) simulation count
        (plain_of_standIns alike.left) prepared returns
      obtain ⟨ends', picked'⟩ := checked.picks_simulated (p.wanted o') simulation' count'
        (plain_of_standIns alike.right) prepared' returns'
      have misfit : p.HasMisfit plan' ↔ p.HasMisfit plan := by
        obtain ⟨-, graph, -⟩ := Plan.sound_of_prepare checked.wired prepared
        obtain ⟨-, graph', -⟩ := Plan.sound_of_prepare checked.wired prepared'
        exact hasMisfit_congr (graph'.trans graph.symm) (Plan.live_eq prepared prepared' wanted elide)
      rw [Plan.requested_eq prepared prepared' wanted, misfit] at ends'
      rw [wanted] at ends' picked'
      refine ⟨fun uncancelled uncancelled' => ?_, fun xs xs' ok ok' => ?_⟩
      · obtain ⟨failed, answered⟩ := ends uncancelled
        obtain ⟨failed', answered'⟩ := ends' (by rwa [wanted] at uncancelled')
        rw [wanted]
        exact ⟨answered.trans answered'.symm, failed.trans failed'.symm⟩
      · obtain ⟨-, simulated⟩ := picked xs ok
        obtain ⟨-, simulated'⟩ := picked' xs' (by rwa [wanted] at ok')
        obtain ⟨noise, decrypts⟩ := decryptAll_alike simulated simulated' (checked.placed prepared)
          fun v asked s t simulates simulates' slot q place known =>
            checked.simulated_alike simulation simulation' count alike abroad asked simulates simulates'
              _ q (.own place) (Environment.partition_of_get? known)
        refine ⟨noise, fun c' d' => ?_⟩
        obtain ⟨messages, decrypted, decrypted'⟩ := decrypts c' d'
        refine ⟨messages, decrypted, decrypted', fun own => ?_⟩
        have outputs : p.wanted o = p.outputs := by rw [Program.wanted, own, Option.getD_none]
        rw [outputs] at simulated simulated' decrypted decrypted'
        rw [decryptOutputs_eq simulated.length_eq.symm, decryptOutputs_eq simulated'.length_eq.symm]
        exact ⟨decrypted, decrypted'⟩

end Calls

end Program

/-! ## a value that is read by a wider modulus than its own -/

namespace Widening

open Collision.Negation (standIns)
open Exhaustion (alone mayCall_of_alone)

/-- A change to a partition with more plaintexts. -/
def artifact : Artifact :=
  { name := "widening"
    partitions :=
      [{ name := "narrow", lweDim := 1, glweDim := 1, polySize := 4, messageModulus := some 2
         carryModulus := some 2 },
        { name := "wide", lweDim := 1, glweDim := 1, polySize := 4 }]
    inputs := [{ value := 0, partition := "narrow" }]
    outputs := [1]
    nodes :=
      [{ id := 0, op := .changePartition "narrow", inputs := [0], output := 1, partition := "wide" }] }

def program : Program := (Program.load artifact).toOption.getD default

theorem loaded : Program.load artifact = .ok program := Except.eq_ok_of_isOk (by decide +kernel)

/-- A stand-in without noise. -/
def inputs (shadow : UInt64) : List Value := [.simulated ⟨shadow, 0⟩]

/-- What the values of a call decrypt to. -/
def decrypted (r : Except RunError (List Value) × Trace × Context) : Option (List UInt64) :=
  r.1.toOption.bind fun xs => (program.decryptOutputs xs r.2.2).1.toOption

theorem called :
    (alone program (inputs 1) standIns 20).map decrypted = some (some [1]) ∧
      (alone program (inputs 5) standIns 20).map decrypted = some (some [5]) ∧
      (alone program (inputs 17) standIns 20).map decrypted = some (some [1]) := by
  decide +kernel

theorem exists_call {shadow message : UInt64}
    (told : (alone program (inputs shadow) standIns 20).map decrypted = some (some [message])) :
    ∃ r xs, program.MayCall (inputs shadow) {} standIns r ∧ r.1 = .ok xs ∧
      (program.decryptOutputs xs r.2.2).1 = .ok [message] := by
  obtain ⟨r, called, told⟩ := Option.map_eq_some_iff.mp told
  obtain ⟨xs, ok, decrypted⟩ := Option.bind_eq_some_iff.mp told
  have count : (inputs shadow).length = program.inputs.length := by
    rw [show program.inputs.length = 1 by decide +kernel]
    rfl
  exact ⟨r, xs, mayCall_of_alone count rfl called, Except.eq_ok_of_toOption ok,
    Except.eq_ok_of_toOption decrypted⟩

/-- Stand-ins without noise that agree modulo the four plaintexts of the input are alike. -/
theorem alike {s t : UInt64} (same : s % 4 = t % 4) : program.Alike (inputs s) (inputs t) := by
  have narrow : ∀ input ∈ program.inputs,
      (program.partitions.get? input.2).map (·.plaintextModulus) = some 4 := by decide +kernel
  refine ⟨rfl, fun k x x' given given' => ?_⟩
  cases k with
  | succ k => simp [inputs] at given
  | zero =>
      simp only [inputs, List.getElem?_cons_zero, Option.some.injEq] at given given'
      refine ⟨_, _, given.symm, given'.symm, fun input q declared known => ⟨rfl, ?_⟩⟩
      have modulus := narrow input (List.mem_of_getElem? declared)
      rw [known, Option.map_some, Option.some.injEq] at modulus
      rwa [modulus]

/-- One and seventeen agree modulo all plaintexts of both partitions, and so do the outputs. -/
theorem simulation_reads_residues_seventeen :
    program.Alike (inputs 1) (inputs 17) ∧
      program.AlikeAbroad (program.Takes {} standIns) (inputs 1) (inputs 17) ∧
      ∃ r xs r' xs', program.MayCall (inputs 1) {} standIns r ∧ r.1 = .ok xs ∧
        program.MayCall (inputs 17) {} standIns r' ∧ r'.1 = .ok xs' ∧
        ∃ messages, (program.decryptOutputs xs r.2.2).1 = .ok messages ∧
          (program.decryptOutputs xs' r'.2.2).1 = .ok messages := by
  have all : ∀ q ∈ program.partitions.partitions.toList,
      (1 : UInt64) % q.plaintextModulus = 17 % q.plaintextModulus := by decide +kernel
  have abroad : program.AlikeAbroad (program.Takes {} standIns) (inputs 1) (inputs 17) := by
    intro k input q s t declared known given given' id q' read known' wider
    cases k with
    | succ k => simp [inputs] at given
    | zero =>
        simp only [inputs, List.getElem?_cons_zero, Option.some.injEq, Value.simulated.injEq] at given given'
        rw [← given, ← given']
        exact all q' (Array.mem_toList_iff.mpr (Registry.mem_of_get? known'))
  obtain ⟨r, xs, h, ok, -⟩ := exists_call called.1
  obtain ⟨r', xs', h', ok', -⟩ := exists_call called.2.2
  obtain ⟨-, agree⟩ := Program.simulation_reads_residues loaded rfl rfl rfl rfl rfl rfl rfl
    (alike (by decide)) abroad h h'
  obtain ⟨messages, -, -, decrypts⟩ := (agree xs xs' ok ok').2 r.2.2 r'.2.2
  exact ⟨alike (by decide), abroad, r, xs, r', xs', h, ok, h', ok', messages, decrypts rfl⟩

/-- One and five agree modulo the four plaintexts of the input, and decrypt to different messages once they
are changed to the partition with sixteen. -/
theorem wider_modulus_tells_apart :
    Program.load artifact = .ok program ∧ standIns.mode = .simulation ∧
      program.Alike (inputs 1) (inputs 5) ∧
      ∃ r xs r' xs', program.MayCall (inputs 1) {} standIns r ∧ r.1 = .ok xs ∧
        program.MayCall (inputs 5) {} standIns r' ∧ r'.1 = .ok xs' ∧
        (program.decryptOutputs xs r.2.2).1 = .ok [1] ∧
        (program.decryptOutputs xs' r'.2.2).1 = .ok [5] := by
  obtain ⟨r, xs, h, ok, decrypted⟩ := exists_call called.1
  obtain ⟨r', xs', h', ok', decrypted'⟩ := exists_call called.2.1
  exact ⟨loaded, rfl, alike (by decide), r, xs, r', xs', h, ok, h', ok', decrypted, decrypted'⟩

end Widening

end HomCircuit
