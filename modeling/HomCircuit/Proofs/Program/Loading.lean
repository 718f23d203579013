import HomCircuit.Program.Basic
import HomCircuit.Proofs.Except
import HomCircuit.Proofs.Graph.Wiring
import HomCircuit.Proofs.Partition.Registration

/-!
# HomCircuit.Proofs.Program.Loading

What a program that was loaded can rely on.

* `Program.Checked` — partitions are registered, every partition that a node or an input names is
  one of them, and the graph makes every output;
* `Program.checked_of_load` — every program that loads is checked;
* `Program.exists_build_of_load` — and its graph was built.
-/

namespace HomCircuit

/-! ## graphs of given nodes -/

namespace Graph

variable {nodes : List Node} {arguments : List (ValueId × PartitionId)} {g : Graph}

theorem eq_wire_of_build (h : build nodes arguments = .ok g) :
    g = wire (sortNodes nodes) arguments := by
  simp only [build] at h
  split at h
  · contradiction
  · exact (Except.ok.inj h).symm

/-- The nodes of a graph are those that it was built from. -/
theorem mem_of_build (h : build nodes arguments = .ok g) {n : Node} (mem : n ∈ g.nodes) :
    n ∈ nodes := by
  rw [eq_wire_of_build h] at mem
  simpa [wire, mem_sortNodes] using mem

theorem arguments_of_build (h : build nodes arguments = .ok g) :
    g.arguments.toList = arguments := by
  rw [eq_wire_of_build h]
  rfl

end Graph

/-! ## programs -/

namespace Program

/-- What the checks of a program leave. -/
structure Checked (p : Program) : Prop where
  sane : p.partitions.Sane
  wired : p.graph.Wired
  arguments : p.graph.arguments.toList = p.inputs
  partition_known : ∀ n ∈ p.graph.nodes, ∃ q, p.partitions.get? n.partition = some q
  source_known : ∀ n ∈ p.graph.nodes, ∀ source, n.op = .changePartition source →
    ∃ q, p.partitions.get? source = some q
  input_known : ∀ input ∈ p.inputs, ∃ q, p.partitions.get? input.2 = some q
  output_known : ∀ v ∈ p.outputs, ∃ slot, p.graph.slot? v = some slot

theorem sane_registerAll {r r' : Registry} {entries : List PartitionEntry} (s : r.Sane)
    (h : registerAll r entries = .ok r') : r'.Sane := by
  induction entries generalizing r with
  | nil =>
      obtain rfl := Except.ok.inj h
      exact s
  | cons entry rest ih =>
      simp only [registerAll] at h
      cases registered : r.register entry.toPartition with
      | error err => simp [registered] at h
      | ok found =>
          obtain ⟨id, next⟩ := found
          simp only [registered] at h
          exact ih (s.register registered) h

section Names

variable {r : Registry}

/-- A name that resolves has a partition. -/
theorem exists_of_resolve (s : r.Sane) {name : String} {id : PartitionId}
    (h : resolve r name = .ok id) : ∃ q, r.get? id = some q := by
  unfold resolve at h
  cases found : r.idOf? name with
  | none => simp [found] at h
  | some id' =>
      simp only [found, Except.ok.injEq] at h
      rw [← h]
      exact s.exists_get? found

theorem exists_of_operation (s : r.Sane) {entry : OperationEntry} {source : PartitionId}
    (h : operation r entry = .ok (.changePartition source)) : ∃ q, r.get? source = some q := by
  cases entry with
  | changePartition name =>
      obtain ⟨id, found, same⟩ := Except.exists_of_map h
      obtain rfl := Operation.changePartition.inj same
      exact exists_of_resolve s found
  | _ => simp [operation] at h

/-- The partitions of a node are known. -/
theorem exists_of_node (s : r.Sane) {entry : NodeEntry} {n : Node} (h : node r entry = .ok n) :
    (∃ q, r.get? n.partition = some q) ∧
      ∀ source, n.op = .changePartition source → ∃ q, r.get? source = some q := by
  obtain ⟨op, made, h⟩ := Except.exists_of_bind h
  obtain ⟨id, found, h⟩ := Except.exists_of_bind h
  obtain rfl := Except.ok.inj h
  refine ⟨exists_of_resolve s found, ?_⟩
  rintro source rfl
  exact exists_of_operation s made

theorem exists_of_argument (s : r.Sane) {entry : InputEntry} {input : ValueId × PartitionId}
    (h : argument r entry = .ok input) : ∃ q, r.get? input.2 = some q := by
  obtain ⟨id, found, rfl⟩ := Except.exists_of_map h
  exact exists_of_resolve s found

end Names

/-- Outputs that pass the check have slots. -/
theorem exists_of_checkOutputs {name : String} {g : Graph} {outputs : List ValueId}
    (h : checkOutputs name g outputs = .ok ()) : ∀ v ∈ outputs, ∃ slot, g.slot? v = some slot := by
  unfold checkOutputs at h
  split at h
  · contradiction
  · split at h
    · contradiction
    · rename_i found
      intro v mem
      have there := List.find?_eq_none.mp found v mem
      exact Option.ne_none_iff_exists'.mp (by simpa using there)

/-- There are some. -/
theorem ne_nil_of_checkOutputs {name : String} {g : Graph} {outputs : List ValueId}
    (h : checkOutputs name g outputs = .ok ()) : outputs ≠ [] := by
  rintro rfl
  contradiction

/-- A program that loads has outputs. -/
theorem outputs_ne_nil_of_load {a : Artifact} {p : Program} (h : load a = .ok p) : p.outputs ≠ [] := by
  obtain ⟨r, -, h⟩ := Except.exists_of_bind h
  obtain ⟨nodes, -, h⟩ := Except.exists_of_bind h
  obtain ⟨inputs, -, h⟩ := Except.exists_of_bind h
  obtain ⟨g, -, h⟩ := Except.exists_of_bind h
  obtain ⟨⟨⟩, checked, h⟩ := Except.exists_of_bind h
  obtain rfl := Except.ok.inj h
  exact ne_nil_of_checkOutputs checked

/-- Every program that loads is checked. -/
theorem checked_of_load {a : Artifact} {p : Program} (h : load a = .ok p) : p.Checked := by
  obtain ⟨r, registered, h⟩ := Except.exists_of_bind h
  obtain ⟨nodes, made, h⟩ := Except.exists_of_bind h
  obtain ⟨inputs, declared, h⟩ := Except.exists_of_bind h
  obtain ⟨g, built, h⟩ := Except.exists_of_bind h
  obtain ⟨⟨⟩, checked, h⟩ := Except.exists_of_bind h
  obtain rfl := Except.ok.inj h
  have sane := sane_registerAll Registry.sane_empty registered
  have known : ∀ n ∈ g.nodes, (∃ q, r.get? n.partition = some q) ∧
      ∀ source, n.op = .changePartition source → ∃ q, r.get? source = some q := by
    intro n mem
    obtain ⟨entry, from_entry⟩ := Except.exists_of_mem_mapM made n (Graph.mem_of_build built mem)
    exact exists_of_node sane from_entry
  exact
    { sane
      wired := Graph.wired_of_build built
      arguments := Graph.arguments_of_build built
      partition_known := fun n mem => (known n mem).1
      source_known := fun n mem => (known n mem).2
      input_known := by
        intro input mem
        obtain ⟨entry, from_entry⟩ := Except.exists_of_mem_mapM declared input mem
        exact exists_of_argument sane from_entry
      output_known := exists_of_checkOutputs checked }

/-- A program is loaded from its parts, if its nodes are in ascending order and nothing is at fault. -/
theorem load_eq_ok {a : Artifact} {r : Registry} {nodes : List Node}
    {inputs : List (ValueId × PartitionId)}
    (registered : registerAll .empty a.partitions = .ok r)
    (resolved : a.nodes.mapM (node r) = .ok nodes) (declared : a.inputs.mapM (argument r) = .ok inputs)
    (ascending : nodes.Pairwise fun n n' => n.id.index ≤ n'.id.index)
    (sane : Graph.fault? nodes inputs = none)
    (produced : checkOutputs a.name (Graph.wire nodes inputs) (a.outputs.map ValueId.mk) = .ok ()) :
    load a = .ok
      { name := a.name, partitions := r, graph := Graph.wire nodes inputs, inputs
        outputs := a.outputs.map ValueId.mk } := by
  simp only [load, registered, resolved, declared, Graph.build_eq_ok ascending sane, produced,
    Bind.bind, Except.bind]

/-- The graph of a program that loads was built from nodes and arguments. -/
theorem exists_build_of_load {a : Artifact} {p : Program} (h : load a = .ok p) :
    ∃ nodes arguments, Graph.build nodes arguments = .ok p.graph := by
  obtain ⟨r, -, h⟩ := Except.exists_of_bind h
  obtain ⟨nodes, -, h⟩ := Except.exists_of_bind h
  obtain ⟨arguments, -, h⟩ := Except.exists_of_bind h
  obtain ⟨g, built, h⟩ := Except.exists_of_bind h
  obtain ⟨-, -, h⟩ := Except.exists_of_bind h
  obtain rfl := Except.ok.inj h
  exact ⟨nodes, arguments, built⟩

end Program

end HomCircuit
