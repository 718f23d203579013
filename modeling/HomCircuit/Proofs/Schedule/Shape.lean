import HomCircuit.Proofs.Except
import HomCircuit.Proofs.Graph.Denotes
import HomCircuit.Proofs.Primitive.Shape
import HomCircuit.Proofs.Schedule.Perform
import HomCircuit.Proofs.Schedule.Returns

/-!
# HomCircuit.Proofs.Schedule.Shape

Every ciphertext in flight on the processor has the length of the partition of its slot, whatever
order the nodes run in, although partitions are compared on the edges of the graph only.

```
slot of partition q   ↦   ciphertexts of the length of q
```

* `Environment.Covers` — all partitions that a graph names are known and valid;
* `Environment.Shaped`, `Node.Misfits` — the ciphertexts of a slot, and the failure that is left: a
  table that fits neither modulus of its partition;
* `Node.Computes.settles` — a node keeps shapes, or fails this way;
* `Plan.MayReturn.shaped` — so does a call, in every interleaving.
-/

namespace HomCircuit

/-! ## shapes -/

/-- A ciphertext has the length of the partition of a slot. -/
def Environment.Shaped (e : Environment) (g : Graph) (slot : Nat) (ct : Ciphertext) : Prop :=
  ∃ q, e.partition (g.slotPartition slot) = .ok q ∧ ct.length = q.ciphertextLength

/-- A lookup fails because its table has the length of neither modulus of its partition. -/
def Node.Misfits (e : Environment) (n : Node) (err : RunError) : Prop :=
  ∃ table q, n.op = .lookup table ∧ e.partition n.partition = .ok q ∧
    table.length ≠ q.plaintextModulus.toNat ∧ table.length ≠ q.messageModulus.toNat ∧
    err = nodeFailure n (.lookupTable table.length q.plaintextModulus)

/-- A lookup whose table does not fit its partition. -/
def Node.HasMisfit (e : Environment) (n : Node) : Prop :=
  ∃ table q, n.op = .lookup table ∧ e.partition n.partition = .ok q ∧
    Primitive.tableFits table q = false

/-- All partitions that a graph names are known and valid. -/
structure Environment.Covers (e : Environment) (g : Graph) : Prop where
  valid : ∀ q ∈ e.partitions.partitions, q.Valid
  partition : ∀ i < g.size, ∃ q, e.partition (g.node i).partition = .ok q
  inputPartition : ∀ i < g.size, ∃ q, e.partition (g.node i).inputPartition = .ok q
  argument : ∀ a ∈ g.arguments.toList, ∃ q, e.partition a.2 = .ok q

theorem Environment.partition_of_get? {e : Environment} {id : PartitionId} {q : Partition}
    (h : e.partitions.get? id = some q) : e.partition id = .ok q := by
  simp [Environment.partition, h]

theorem Environment.get?_of_partition {e : Environment} {id : PartitionId} {q : Partition}
    (h : e.partition id = .ok q) : e.partitions.get? id = some q := by
  unfold Environment.partition at h
  split at h
  · rename_i found
    exact Except.ok.inj h ▸ found
  · contradiction

section Node

variable {e : Environment} {n : Node}

/-- The keys that the inputs of a node are under. -/
theorem sourceKeys_of_rel {source : Option Partition} {output : KeySet} {input : Option KeySet}
    {q from_ : Partition} (known : e.partition n.partition = .ok q)
    (foreign : e.partition n.inputPartition = .ok from_)
    (found : sourcePartition e n = .ok source) (own : output.IsOf q)
    (other : Option.Rel (fun q k => k.IsOf q) source input) :
    ∃ k, Primitive.sourceKeys n.op ⟨output, input⟩ = .ok k ∧ k.IsOf from_ := by
  unfold sourcePartition at found
  unfold Node.inputPartition at foreign
  cases op : n.op with
  | changePartition id =>
      simp only [op] at found foreign
      obtain ⟨from', known', rfl⟩ := Except.exists_of_map found
      obtain rfl := Except.ok.inj (foreign.symm.trans known')
      cases other with
      | some isOf => exact ⟨_, rfl, isOf⟩
  | _ =>
      simp only [op] at foreign
      obtain rfl := Except.ok.inj (known.symm.trans foreign)
      exact ⟨output, rfl, own⟩

/-- A node on ciphertexts of the right lengths gives one of the right length, or its table fits
neither modulus. -/
theorem Node.Computes.settles {words : List Ciphertext} {q from_ : Partition}
    (valid : ∀ q ∈ e.partitions.partitions, q.Valid) (known : e.partition n.partition = .ok q)
    (foreign : e.partition n.inputPartition = .ok from_) (arity : words.length = n.op.arity)
    (lengths : ∀ ct ∈ words, ct.length = from_.ciphertextLength)
    {result : Except RunError Ciphertext}
    (h : n.Computes e (fun q k => k.IsOf q) words result) :
    Settles (fun ct => ct.length = q.ciphertextLength) (n.Misfits e) result := by
  cases h with
  | unknown unknown =>
      rw [known] at unknown
      contradiction
  | unknownSource unknown =>
      unfold sourcePartition at unknown
      unfold Node.inputPartition at foreign
      cases op : n.op with
      | changePartition id =>
          simp only [op] at unknown foreign
          simp [foreign, Except.map] at unknown
      | _ => simp [op] at unknown
  | refused member invalid =>
      rw [Partition.validate_eq_ok_iff.mpr (valid _ member)] at invalid
      contradiction
  | @ran q' source output input known' found own other =>
      obtain rfl := Except.ok.inj (known.symm.trans known')
      obtain ⟨k, keys, isOf⟩ := sourceKeys_of_rel known foreign found own other
      have settled := Primitive.settles_run own keys isOf arity lengths (nodeNonce n.id words)
      cases ran : Primitive.run n.op words ⟨output, input⟩ (nodeNonce n.id words) with
      | ok ct =>
          rw [ran] at settled
          exact settled
      | error err =>
          rw [ran] at settled
          obtain ⟨table, op, misfit, rfl⟩ := settled
          have apart := (Primitive.tableFits_eq_false_iff
            (valid q (Environment.mem_of_partition known))).mp misfit
          exact ⟨table, q, op, known, apart.1, apart.2, rfl⟩

theorem Node.Misfits.hasMisfit (valid : ∀ q ∈ e.partitions.partitions, q.Valid) {err : RunError}
    (h : n.Misfits e err) : n.HasMisfit e := by
  obtain ⟨table, q, op, known, plaintexts, messages, -⟩ := h
  have valid := valid q (Environment.mem_of_partition known)
  exact ⟨table, q, op, known, (Primitive.tableFits_eq_false_iff valid).mpr ⟨plaintexts, messages⟩⟩

/-- A table that does not fit is refused on the processor. -/
theorem Node.HasMisfit.not_computes (h : n.HasMisfit e) {handed : Partition → KeySet → Prop}
    (isOf : ∀ q ∈ e.partitions.partitions, ∀ k, handed q k → k.IsOf q) {words : List Ciphertext}
    {ct : Ciphertext} : ¬n.Computes e handed words (.ok ct) := by
  intro computed
  obtain ⟨table, q, op, known, misfit⟩ := h
  generalize result : Except.ok ct = r at computed
  cases computed with
  | ran known' found own other =>
      obtain rfl := Except.ok.inj (known.symm.trans known')
      have partition := (isOf q (Environment.mem_of_partition known) _ own).partition
      have ran := Except.eq_ok_of_mapError result.symm
      rw [op] at ran
      exact Primitive.run_lookup_ne_ok (by rw [partition, misfit]) _ _ ran
  | _ => contradiction

/-- A node computes what it computes with keys that may be handed out more freely. -/
theorem Node.Computes.mono {handed handed' : Partition → KeySet → Prop}
    (more : ∀ q ∈ e.partitions.partitions, ∀ k, handed q k → handed' q k)
    {words : List Ciphertext} {result : Except RunError Ciphertext}
    (h : n.Computes e handed words result) : n.Computes e handed' words result := by
  cases h with
  | unknown unknown => exact .unknown unknown
  | unknownSource unknown => exact .unknownSource unknown
  | refused member invalid => exact .refused member invalid
  | @ran q source output input known found own other =>
      refine .ran known found (more q (Environment.mem_of_partition known) _ own) ?_
      cases other with
      | none => exact .none
      | some given => exact .some (more _ (mem_of_sourcePartition found) _ given)

end Node

/-! ## graphs -/

theorem Graph.slotPartition_outputSlot {g : Graph} {i : Nat} (inside : i < g.size) :
    g.slotPartition (g.outputSlot i) = (g.node i).partition := by
  simp [slotPartition, producer?, outputSlot, inside, node]

theorem Graph.slotPartition_argument {g : Graph} {k : Nat} {a : ValueId × PartitionId}
    (found : g.arguments[k]? = some a) : g.slotPartition k = a.2 := by
  obtain ⟨inside, rfl⟩ := Array.getElem?_eq_some_iff.mp found
  simp [slotPartition, producer?, inside]

theorem Graph.Wired.length_inputsOf {g : Graph} (w : g.Wired) {i : Nat} (inside : i < g.size) :
    (g.inputsOf i).length = (g.node i).op.arity := by
  rw [← w.arity i inside, ← w.inputs_values i inside, List.length_map]

/-- Each slot of a covered graph has a partition. -/
theorem Environment.Covers.slot {e : Environment} {g : Graph} (covers : e.Covers g) (w : g.Wired)
    {slot : Nat} (inside : slot < g.slotCount) : ∃ q, e.partition (g.slotPartition slot) = .ok q := by
  rw [w.slotCount] at inside
  by_cases argument : slot < g.arguments.size
  · have found : g.arguments[slot]? = some g.arguments[slot] := Array.getElem?_eq_getElem argument
    rw [Graph.slotPartition_argument found]
    exact covers.argument _ (Array.getElem_mem_toList argument)
  · obtain ⟨i, rfl⟩ := Nat.exists_eq_add_of_le (not_lt.mp argument)
    have node : i < g.size := by omega
    rw [← Graph.outputSlot, Graph.slotPartition_outputSlot node]
    exact covers.partition i node

/-- On the processor an argument is bound to words of the length of its partition, or refused. -/
theorem Run.argument_processor {e : Environment} {supplied : List (ValueId × Value)}
    (processor : e.mode = .cpu) {v : ValueId} {partition : PartitionId} {b : Buffer}
    (h : Run.argument e supplied v partition = .ok b) :
    ∃ q ct, e.partition partition = .ok q ∧ b = .ofHost v partition (.ciphertext ct) ∧
      ct.length = q.ciphertextLength := by
  obtain ⟨x, q, y, -, known, made, rfl⟩ := Run.exists_of_argument h
  rw [processor] at made
  cases x with
  | ciphertext words =>
      simp only [Run.representation] at made
      split at made
      · contradiction
      · rename_i length
        obtain rfl := Except.ok.inj made
        exact ⟨q, words, known, rfl, not_not.mp length⟩
  | cleartext message =>
      obtain rfl := Except.ok.inj made
      refine ⟨q, _, known, rfl, ?_⟩
      simp [trivialCiphertext, Partition.ciphertextLength]
  | simulated s => simp [Run.representation] at made

/-- On stand-ins an argument is bound to a stand-in for what was supplied, or refused. -/
theorem Run.argument_standIn {e : Environment} {supplied : List (ValueId × Value)}
    (simulation : e.mode = .simulation) {v : ValueId} {partition : PartitionId} {b : Buffer}
    (h : Run.argument e supplied v partition = .ok b) :
    ∃ q x s, supplied.lookup v = some x ∧ e.partition partition = .ok q ∧
      Run.representation .simulation v q x = .ok (.simulated s) ∧
      b = .ofHost v partition (.simulated s) := by
  obtain ⟨x, q, y, found, known, made, rfl⟩ := Run.exists_of_argument h
  rw [simulation] at made
  cases x with
  | ciphertext words => contradiction
  | cleartext message =>
      obtain rfl := Except.ok.inj made
      exact ⟨q, _, _, found, known, rfl, rfl⟩
  | simulated s =>
      obtain rfl := Except.ok.inj made
      exact ⟨q, _, s, found, known, rfl, rfl⟩

/-- A live node keeps the shapes of its graph, or its table fits neither modulus. -/
theorem Environment.Covers.settles {e : Environment} {g : Graph} (covers : e.Covers g) (w : g.Wired) {i : Nat}
    (inside : i < g.size) {words : List Ciphertext}
    (read : List.Forall₂ (e.Shaped g) (g.inputsOf i) words)
    {result : Except RunError Ciphertext}
    (computed : (g.node i).Computes e (fun q k => k.IsOf q) words result) :
    Settles (e.Shaped g (g.outputSlot i)) ((g.node i).Misfits e) result := by
  obtain ⟨q, known⟩ := covers.partition i inside
  obtain ⟨from_, foreign⟩ := covers.inputPartition i inside
  have arity : words.length = (g.node i).op.arity := by
    rw [← read.length_eq, w.length_inputsOf inside]
  have lengths : ∀ ct ∈ words, ct.length = from_.ciphertextLength := by
    intro ct mem
    obtain ⟨k, lt, rfl⟩ := List.getElem_of_mem mem
    have lt' : k < (g.inputsOf i).length := by rwa [read.length_eq]
    obtain ⟨q', known', length⟩ := List.Forall₂.get read lt' lt
    rw [List.get_eq_getElem, w.inputs_partition i inside _ (List.getElem_mem lt'), foreign] at known'
    obtain rfl := Except.ok.inj known'
    exact length
  refine (computed.settles covers.valid known foreign arity lengths).mono ?_ fun _ misfit => misfit
  intro ct length
  refine ⟨q, ?_, length⟩
  rw [Graph.slotPartition_outputSlot inside, known]

section Call

variable {e : Environment} {p : Plan} {supplied : List (ValueId × Value)}

/-- The processor as a backend that keeps shapes. -/
def Discipline.shapes (sound : p.Sound) (covers : e.Covers p.graph) (processor : e.mode = .cpu)
    (reference : e.primitives = .reference) (home : p.options.assignment = []) : Discipline e p :=
  .processor processor reference home (fun q k => k.IsOf q) (e.Shaped p.graph)
    (fun i => (p.graph.node i).Misfits e)
    (fun i alive err unknown => by
      obtain ⟨q, known⟩ := covers.partition i (sound.live_lt i alive)
      rw [known] at unknown
      contradiction)
    (fun i alive words read result computed =>
      covers.settles sound.wired (sound.live_lt i alive) read computed)

/-- Bound arguments have the shapes of the graph. -/
theorem Stock.admits_shapes (processor : e.mode = .cpu) :
    Stock.Admits e p supplied (Holding .ciphertext (e.Shaped p.graph)) := by
  intro k v partition b found _ bound
  obtain ⟨q, ct, known, rfl, length⟩ := Run.argument_processor processor bound
  refine ⟨_, rfl, ct, rfl, q, ?_, length⟩
  rw [Graph.slotPartition_argument found, known]

/-- Whatever a call whose arguments were accepted may answer has the shapes of its graph. -/
theorem Plan.MayReturn.shaped (sound : p.Sound) (covers : e.Covers p.graph)
    (processor : e.mode = .cpu) (reference : e.primitives = .reference)
    (home : p.options.assignment = []) {resources : Resources}
    (keys : e.HandsOut (fun q k => k.IsOf q) resources) {run : Run}
    (bound : Run.bind e p supplied p.graph.arguments.toList (Run.initial p resources) =
      (.ok (), run)) {workers : Nat} {answer : Answer}
    (h : p.MayReturn e workers supplied resources answer) :
    (∃ values, answer.1 = .ok values ∧
        List.Forall₂ (fun q a => a.1 = q.1 ∧ ∃ ct, a.2 = .ciphertext ct ∧ e.Shaped p.graph q.2 ct)
          p.requested values) ∨
      ∃ f : Failure, ∃ skipped, answer.1 = .error (.graphCancelled f.error f.node skipped) ∧
        f.Blames p fun i => (p.graph.node i).Misfits e := by
  have kept : answer.Keeps (Discipline.shapes sound covers processor reference home).conduct :=
    h.keeps sound keys (Stock.admits_shapes processor) bound
  obtain ⟨-, told⟩ := kept
  cases result : answer.1 with
  | error err =>
      rw [result] at told
      obtain ⟨f, skipped, blames, rfl⟩ := told
      exact .inr ⟨f, skipped, rfl, blames⟩
  | ok values =>
      rw [result] at told
      exact .inl ⟨values, rfl, told.1⟩

end Call

end HomCircuit
