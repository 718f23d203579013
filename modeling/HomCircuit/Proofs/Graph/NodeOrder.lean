import HomCircuit.Proofs.Graph.LeastOrder
import HomCircuit.Proofs.Graph.WellFormed

/-!
# HomCircuit.Proofs.Graph.NodeOrder

The order in which nodes are given is of no importance, and the edges of a graph are those of its nodes.

```
edges into node i          the inputs of i that some node makes
edges from node j to i     how often i lists the output of j
```

Nodes are put in order of their numbers before anything else is done. Different numbers leave one such
order only, and equal ones are refused, wherever they stand.

* `Graph.sortNodes_perm` — nodes with numbers of their own are sorted alike, however they are given;
* `Graph.Linked.count_producersOf`, `Graph.Linked.dependencyCount_eq` — edges by the values of inputs;
* `Graph.build_ignores_order` — the graph of some nodes in any order, with all of its edges.
-/

namespace HomCircuit.Graph

/-! ## sorting -/

section Sorting

variable {nodes nodes' : List Node} {arguments : List (ValueId × PartitionId)} {g : Graph}

/-- Nodes with numbers of their own are sorted in one way, however they are given. -/
theorem sortNodes_perm (same : nodes.Perm nodes') (own : (nodes.map (·.id)).Nodup) :
    sortNodes nodes = sortNodes nodes' := by
  have perm : (sortNodes nodes).Perm (sortNodes nodes') :=
    (List.mergeSort_perm nodes _).trans (same.trans (List.mergeSort_perm nodes' _).symm)
  refine perm.eq_of_pairwise ?_ (ascending_sortNodes nodes) (ascending_sortNodes nodes')
  intro a b mem mem' le ge
  have numbers : a.id = b.id := congrArg NodeId.mk (UInt32.le_antisymm le ge)
  exact List.inj_on_of_nodup_map own (mem_sortNodes.mp mem)
    (same.mem_iff.mpr (mem_sortNodes.mp mem')) numbers

/-- A graph is the wiring of its nodes in order, which have numbers of their own. -/
theorem of_build (built : build nodes arguments = .ok g) :
    (nodes.map (·.id)).Nodup ∧ g = wire (sortNodes nodes) arguments := by
  simp only [build] at built
  split at built
  · contradiction
  · next sane =>
      have sorted := wellFormed_of_fault? (ascending_sortNodes nodes) sane
      have perm : (sortNodes nodes).Perm nodes := List.mergeSort_perm nodes _
      exact ⟨(sorted.perm perm).ids_nodup, (Except.ok.inj built).symm⟩

/-- What is built of nodes is built of them in any other order. -/
theorem build_of_perm (same : nodes.Perm nodes') (built : build nodes arguments = .ok g) :
    build nodes' arguments = .ok g := by
  rw [← built]
  unfold build
  rw [sortNodes_perm same (of_build built).1]

/-- The nodes of a graph are those that it was built of. -/
theorem nodes_perm_of_build (built : build nodes arguments = .ok g) : g.nodes.toList.Perm nodes := by
  rw [(of_build built).2]
  exact List.mergeSort_perm nodes _

end Sorting

/-! ## edges -/

section Edges

variable {g : Graph}

/-- A slot holds the output of a node exactly if the node fills it. -/
theorem Linked.valueAt_eq_output_iff (w : g.Linked) {slot j : Nat} (inside : slot < g.slotCount)
    (hj : j < g.size) : g.valueAt slot = (g.node j).output ↔ g.producer? slot = some j := by
  have output : g.outputSlot j < g.slotCount := by
    rw [w.slotCount, outputSlot]
    omega
  rw [← w.valueAt_output j hj, producer?_eq_some_iff]
  constructor
  · intro value
    exact ⟨hj, w.valueAt_inj inside output value⟩
  · intro filled
    rw [filled.2]

/-- A node reads from another as often as it lists its output. -/
theorem Linked.count_producersOf (w : g.Linked) {i j : Nat} (hi : i < g.size) (hj : j < g.size) :
    (g.producersOf i).count j = (g.node i).inputs.count (g.node j).output := by
  rw [← w.inputs_values i hi, producersOf, List.count, List.count, List.countP_filterMap,
    List.countP_map]
  refine List.countP_congr fun slot read => ?_
  have value := w.valueAt_eq_output_iff (w.inputs_lt i slot read).2 hj
  cases made : g.producer? slot <;> simp [value, made]

/-- A node waits for as many edges as it has inputs that some node makes. -/
theorem Linked.dependencyCount_eq (w : g.Linked) {i : Nat} (hi : i < g.size) :
    g.dependencyCount i = (g.node i).inputs.countP (· ∈ g.nodes.toList.map (·.output)) := by
  rw [dependencyCount, producersOf, List.length_filterMap_eq_countP, ← w.inputs_values i hi,
    List.countP_map]
  refine List.countP_congr fun slot read => ?_
  have inside := (w.inputs_lt i slot read).2
  simp only [Option.isSome_iff_exists, Function.comp_apply, decide_eq_true_eq, List.mem_map,
    Array.mem_toList_iff]
  constructor
  · rintro ⟨j, made⟩
    have hj := (producer?_eq_some_iff.mp made).1
    exact ⟨g.node j, node_mem hj, ((w.valueAt_eq_output_iff inside hj).mpr made).symm⟩
  · rintro ⟨n, known, value⟩
    obtain ⟨j, hj, rfl⟩ := exists_node_eq known
    exact ⟨j, (w.valueAt_eq_output_iff inside hj).mp value.symm⟩

end Edges

/-! ## nodes in any order -/

/-- Nodes in two orders are both refused, or make one and the same graph: its nodes, slots, producers,
input slots, consumers and counts are functions of it. Its nodes are those given, by their numbers. A node
of any graph that is built waits for as many edges as it has inputs made by a node, and it is among the
consumers of another node as often as it lists the output of that one. -/
theorem build_ignores_order {nodes nodes' : List Node} (same : nodes.Perm nodes')
    (arguments : List (ValueId × PartitionId)) :
    (∀ g, build nodes arguments = .ok g ↔ build nodes' arguments = .ok g) ∧
    ∀ g, build nodes arguments = .ok g →
      g.nodes.toList.Perm nodes ∧
      (∀ i < g.size, ∀ j < i, (g.node j).id.index < (g.node i).id.index) ∧
      (∀ i < g.size,
        g.dependencyCount i = (g.node i).inputs.countP (· ∈ nodes.map (·.output))) ∧
      ∀ j < g.size, (∀ i ∈ g.dependentsOf j, i < g.size) ∧
        ∀ i < g.size, (g.dependentsOf j).count i = (g.node i).inputs.count (g.node j).output := by
  constructor
  · intro g
    exact ⟨build_of_perm same, build_of_perm same.symm⟩
  · intro g built
    have w := (wired_of_build built).toLinked
    have perm := nodes_perm_of_build built
    refine ⟨perm, fun i inside j before => number_lt_of_build built before inside,
      fun i inside => ?_, fun j inside => ⟨fun i => lt_size_of_mem_dependentsOf w, fun i inside' => ?_⟩⟩
    · rw [w.dependencyCount_eq inside]
      refine List.countP_congr fun v _ => ?_
      simp only [decide_eq_true_eq, (perm.map (·.output)).mem_iff]
    · rw [w.count_dependents, w.count_producersOf inside' inside]

namespace Detour

/-- The nodes the other way round make the same graph, in which the node that reads a value twice waits
for two edges and is twice among the consumers of their node. -/
theorem build_ignores_order_reverse :
    nodes.Perm nodes.reverse ∧ build nodes.reverse [(⟨0⟩, ⟨0⟩)] = .ok graph ∧
      graph.dependencyCount 2 = 2 ∧ (graph.dependentsOf 3).count 2 = 2 := by
  have perm : nodes.Perm nodes.reverse := (List.reverse_perm nodes).symm
  obtain ⟨either, edges⟩ := build_ignores_order perm [(⟨0⟩, ⟨0⟩)]
  have built : build nodes [(⟨0⟩, ⟨0⟩)] = .ok graph := build_eq_ok (by decide) (by decide +kernel)
  obtain ⟨-, -, counts, consumers⟩ := edges graph built
  have inside : 2 < graph.size ∧ 3 < graph.size := by decide
  refine ⟨perm, (either graph).mp built, ?_, ?_⟩
  · rw [counts 2 inside.1]
    decide
  · rw [(consumers 3 inside.2).2 2 inside.1]
    decide

end Detour

end HomCircuit.Graph
