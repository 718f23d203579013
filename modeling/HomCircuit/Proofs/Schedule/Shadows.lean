import HomCircuit.Proofs.Backend.Simulation
import HomCircuit.Proofs.Schedule.Shape

/-!
# HomCircuit.Proofs.Schedule.Shadows

What a call on stand-ins returns is what its graph comes to on stand-ins, whatever order its nodes ran
in.

```
argument   ↦   a stand-in for the message that it is bound to
output     ↦   the operation on the stand-ins of the inputs
```

* `Graph.Simulates` — the recursive evaluation of a graph on stand-ins;
* `Graph.Simulates.bounded` — the shadow of a value is below the plaintext modulus of its partition;
* `Discipline.shadows` — stand-ins as a backend that keeps to this evaluation.
-/

namespace HomCircuit

/-- What the values of a graph come to on stand-ins. -/
def Graph.Simulates (g : Graph) (e : Environment) (supplied : List (ValueId × Value)) :
    ValueId → Simulated → Prop :=
  g.Denotes
    (fun v partition s =>
      Run.argument e supplied v partition = .ok (.ofHost v partition (.simulated s)))
    fun n stand s => n.simulate e stand = .ok s

/-- A shadow is below the plaintext modulus of the partition of a slot. -/
def Environment.Bounded (e : Environment) (g : Graph) (slot : Nat) (s : Simulated) : Prop :=
  ∃ q, e.partition (g.slotPartition slot) = .ok q ∧ s.shadow < q.plaintextModulus

section Step

variable {e : Environment} {n : Node} {stand : List Simulated}

/-- A node on stand-ins below their moduli gives another one, or its table does not fit. -/
theorem Node.settles_simulate {q from_ : Partition} (valid : q.Valid)
    (known : e.partition n.partition = .ok q) (foreign : e.partition n.inputPartition = .ok from_)
    (arity : stand.length = n.op.arity) (below : ∀ s ∈ stand, s.shadow < from_.plaintextModulus) :
    Settles (fun s => s.shadow < q.plaintextModulus) (fun _ => n.HasMisfit e)
      (n.simulate e stand) := by
  have below' (linear : ∀ id, n.op ≠ .changePartition id) :
      ∀ s ∈ stand, s.shadow < q.plaintextModulus := by
    have same : n.inputPartition = n.partition := by
      unfold Node.inputPartition
      cases op : n.op with
      | changePartition id => exact absurd op (linear id)
      | _ => rfl
    rw [same] at foreign
    obtain rfl := Except.ok.inj (known.symm.trans foreign)
    exact below
  have settled : Simulation.Settled n q (Simulation.run n stand q from_) :=
    Simulation.settles_run valid arity below'
  simp only [Node.simulate, known, foreign, Bind.bind, Except.bind]
  cases result : Simulation.run n stand q from_ with
  | done s =>
      rw [result] at settled
      exact settled
  | failed err =>
      rw [result] at settled
      obtain ⟨table, op, misfit, -⟩ := settled
      exact ⟨table, q, op, known, misfit⟩
  | crashed text =>
      rw [result] at settled
      exact settled.elim

/-- A table that does not fit is refused on stand-ins. -/
theorem Node.HasMisfit.not_simulates (h : n.HasMisfit e) {s : Simulated} :
    n.simulate e stand ≠ .ok s := by
  obtain ⟨table, q, op, known, misfit⟩ := h
  intro simulated
  obtain ⟨q', known', simulated⟩ := Except.exists_of_bind simulated
  obtain ⟨source, foreign, simulated⟩ := Except.exists_of_bind simulated
  obtain rfl := Except.ok.inj (known.symm.trans known')
  obtain ⟨err, refused⟩ := Simulation.run_lookup op misfit stand source
  rw [refused] at simulated
  contradiction

end Step

section Graphs

variable {e : Environment} {g : Graph} {supplied : List (ValueId × Value)}

/-- A stand-in is unique. -/
theorem Graph.Simulates.unique (w : g.Wired) {v : ValueId} {s s' : Simulated}
    (h : g.Simulates e supplied v s) (h' : g.Simulates e supplied v s') : s = s' := by
  refine Denotes.unique w ?_ (fun n stand a b ha hb => Except.ok.inj (ha.symm.trans hb)) h h'
  intro v partition a b ha hb
  simpa [Buffer.ofHost] using Except.ok.inj (ha.symm.trans hb)

/-- A node keeps shadows below the moduli of its graph, or its table does not fit. -/
theorem Environment.Covers.settles_simulate (covers : e.Covers g) (w : g.Wired) {i : Nat}
    (inside : i < g.size) {stand : List Simulated}
    (read : List.Forall₂ (e.Bounded g) (g.inputsOf i) stand) :
    Settles (e.Bounded g (g.outputSlot i)) (fun _ => (g.node i).HasMisfit e)
      ((g.node i).simulate e stand) := by
  obtain ⟨q, known⟩ := covers.partition i inside
  obtain ⟨from_, foreign⟩ := covers.inputPartition i inside
  have arity : stand.length = (g.node i).op.arity := by
    rw [← read.length_eq, w.length_inputsOf inside]
  have below : ∀ s ∈ stand, s.shadow < from_.plaintextModulus := by
    intro s mem
    obtain ⟨k, lt, rfl⟩ := List.getElem_of_mem mem
    have lt' : k < (g.inputsOf i).length := by rwa [read.length_eq]
    obtain ⟨q', known', bound⟩ := List.Forall₂.get read lt' lt
    rw [List.get_eq_getElem, w.inputs_partition i inside _ (List.getElem_mem lt'), foreign] at known'
    obtain rfl := Except.ok.inj known'
    exact bound
  have valid := covers.valid q (Environment.mem_of_partition known)
  refine (Node.settles_simulate valid known foreign arity below).mono ?_ fun _ misfit => misfit
  intro s bound
  refine ⟨q, ?_, bound⟩
  rw [Graph.slotPartition_outputSlot inside, known]

/-- A node of a covered graph fails on stand-ins only with a table that does not fit, whatever their
shadows are. -/
theorem Environment.Covers.hasMisfit_of_simulate (covers : e.Covers g) {i : Nat} (inside : i < g.size)
    {stand : List Simulated} (arity : stand.length = (g.node i).op.arity) {err : RunError}
    (failed : (g.node i).simulate e stand = .error err) : (g.node i).HasMisfit e := by
  obtain ⟨q, known⟩ := covers.partition i inside
  obtain ⟨source, foreign⟩ := covers.inputPartition i inside
  by_contra fits
  have valid := covers.valid q (Environment.mem_of_partition known)
  obtain ⟨s, ran⟩ : ∃ s, Simulation.run (g.node i) stand q source = .done s := by
    refine Simulation.exists_run valid arity fun table op => ?_
    by_contra misfit
    exact fits ⟨table, q, op, known, Bool.eq_false_iff.mpr misfit⟩
  simp [Node.simulate, known, foreign, ran, Bind.bind, Except.bind] at failed

/-- A message on stand-ins is encrypted as a stand-in for its remainder. -/
theorem Run.argument_simulation (simulation : e.mode = .simulation)
    (clear : ∀ a ∈ supplied, ∃ message, a.2 = .cleartext message) {v : ValueId}
    {partition : PartitionId} {b : Buffer} (h : Run.argument e supplied v partition = .ok b) :
    ∃ q message, e.partition partition = .ok q ∧
      b = .ofHost v partition (.simulated (Simulation.encrypt q message)) := by
  obtain ⟨q, x, s, found, known, made, rfl⟩ := Run.argument_standIn simulation h
  obtain ⟨front, back, split, -⟩ := List.lookup_eq_some_iff.mp found
  obtain ⟨message, rfl⟩ := clear (v, x) (by rw [split]; simp)
  obtain rfl := Value.simulated.inj (Except.ok.inj made)
  exact ⟨q, message, known, rfl⟩

/-- The shadow of a value is below the plaintext modulus of its partition. -/
theorem Graph.Simulates.bounded (covers : e.Covers g) (w : g.Wired)
    (simulation : e.mode = .simulation)
    (clear : ∀ a ∈ supplied, ∃ message, a.2 = .cleartext message) {v : ValueId} {s : Simulated}
    (h : g.Simulates e supplied v s) : ∀ slot, g.slot? v = some slot → e.Bounded g slot s := by
  refine Denotes.fits w ?_ ?_ h
  · intro k a s found bound
    obtain ⟨q, message, known, made⟩ := Run.argument_simulation simulation clear bound
    obtain rfl : s = Simulation.encrypt q message := by simpa [Buffer.ofHost] using made
    refine ⟨q, by rw [slotPartition_argument found, known], ?_⟩
    have valid := covers.valid q (Environment.mem_of_partition known)
    exact Simulation.mod_lt valid.plaintextModulus_ne_zero
  · intro i inside stand s read made
    have settled := covers.settles_simulate w inside read
    rw [made] at settled
    exact settled

end Graphs

section Call

variable {e : Environment} {p : Plan} {supplied : List (ValueId × Value)}

/-- Stand-ins as a backend that keeps to the evaluation of a graph. -/
def Discipline.shadows (sound : p.Sound) (covers : e.Covers p.graph)
    (simulation : e.mode = .simulation) (supplied : List (ValueId × Value)) : Discipline e p :=
  .simulation simulation (fun slot s => p.graph.Simulates e supplied (p.graph.valueAt slot) s)
    (fun i _ => (p.graph.node i).HasMisfit e)
    (fun i alive err unknown => by
      obtain ⟨q, known⟩ := covers.partition i (sound.live_lt i alive)
      rw [known] at unknown
      contradiction)
    (fun i alive stand read => by
      have inside := sound.live_lt i alive
      have arity : stand.length = (p.graph.node i).op.arity := by
        rw [← read.length_eq, sound.wired.length_inputsOf inside]
      cases made : (p.graph.node i).simulate e stand with
      | ok s => exact sound.wired.denotes_output inside read made
      | error err => exact covers.hasMisfit_of_simulate inside arity made)

/-- Bound arguments are what the arguments come to on stand-ins. -/
theorem Graph.Wired.admits_shadows (w : p.graph.Wired) (simulation : e.mode = .simulation) :
    Stock.Admits e p supplied (Holding .simulated fun slot s =>
      p.graph.Simulates e supplied (p.graph.valueAt slot) s) := by
  intro k v partition b found _ bound
  obtain ⟨-, -, s, -, -, -, rfl⟩ := Run.argument_standIn simulation bound
  refine ⟨_, rfl, s, rfl, ?_⟩
  change p.graph.Simulates e supplied (p.graph.valueAt k) _
  rw [w.valueAt_argument k _ found]
  exact .argument (Array.mem_of_getElem? found) bound

end Call

end HomCircuit
