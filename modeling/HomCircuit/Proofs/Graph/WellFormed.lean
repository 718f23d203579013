import HomCircuit.Proofs.Graph.Liveness
import HomCircuit.Proofs.Graph.Order

/-!
# HomCircuit.Proofs.Graph.WellFormed

Which nodes and arguments make a graph, said without slots, counts or an order.

```
n feeds m   ↔   the output of n is an input of m
```

The last check counts the nodes that a topological sort comes to. It comes to all of them exactly if no
node feeds itself, be it along others: in the one direction every node is reached along the order in
finitely many steps back, in the other a node that is left over has a producer that is left over.

* `Graph.WellFormed` — what nodes and arguments have to satisfy;
* `Graph.Linked.length_dispatchOrder_iff` — the topological sort is complete exactly without a cycle;
* `Graph.builds_iff_wellFormed` — a graph is built of exactly the well-formed nodes and arguments.
-/

namespace HomCircuit.Graph

/-- Of some nodes, one makes an input of another. -/
def Feeds (nodes : List Node) (n m : Node) : Prop := n ∈ nodes ∧ m ∈ nodes ∧ n.output ∈ m.inputs

/-- Nodes and arguments that make a graph. -/
structure WellFormed (nodes : List Node) (arguments : List (ValueId × PartitionId)) : Prop where
  ids_nodup : (nodes.map (·.id)).Nodup
  arity : ∀ n ∈ nodes, n.inputs.length = n.op.arity
  arguments_nodup : (arguments.map (·.1)).Nodup
  outputs_nodup : (nodes.map (·.output)).Nodup
  made : ∀ n ∈ nodes, n.output ∉ arguments.map (·.1)
  known : ∀ n ∈ nodes, ∀ v ∈ n.inputs, v ∈ arguments.map (·.1) ∨ v ∈ nodes.map (·.output)
  argument_partition : ∀ n ∈ nodes, ∀ a ∈ arguments, a.1 ∈ n.inputs → a.2 = n.inputPartition
  producer_partition : ∀ n ∈ nodes, ∀ m ∈ nodes, m.output ∈ n.inputs →
    m.partition = n.inputPartition
  /-- No node feeds itself, directly or along others. -/
  acyclic : ∀ n, ¬ Relation.TransGen (Feeds nodes) n n

variable {nodes nodes' : List Node} {arguments : List (ValueId × PartitionId)} {g : Graph}

/-- The order in which nodes are given does not matter. -/
theorem WellFormed.perm (h : WellFormed nodes arguments) (same : nodes.Perm nodes') :
    WellFormed nodes' arguments := by
  have mem : ∀ n, n ∈ nodes' ↔ n ∈ nodes := fun n => same.symm.mem_iff
  have feeds : Feeds nodes' = Feeds nodes := by
    funext n m
    simp only [Feeds, mem]
  exact
    { ids_nodup := (same.map _).nodup_iff.mp h.ids_nodup
      arity := fun n known => h.arity n ((mem n).mp known)
      arguments_nodup := h.arguments_nodup
      outputs_nodup := (same.map _).nodup_iff.mp h.outputs_nodup
      made := fun n known => h.made n ((mem n).mp known)
      known := fun n known v read =>
        (h.known n ((mem n).mp known) v read).imp_right (same.map _).mem_iff.mp
      argument_partition := fun n known => h.argument_partition n ((mem n).mp known)
      producer_partition := fun n known m known' =>
        h.producer_partition n ((mem n).mp known) m ((mem m).mp known')
      acyclic := feeds ▸ h.acyclic }

/-! ## the topological sort -/

/-- What is reached in finitely many steps back does not lie before itself. -/
theorem not_self_of_acc {α : Type} {r : α → α → Prop} {a : α} (h : Acc r a) : ¬ r a a := by
  induction h with
  | intro a _ ih => exact fun loop => ih a loop loop

/-- A graph with an order of all its nodes has no cycle. -/
theorem Wired.acyclic_feeds (w : g.Wired) (n : Node) :
    ¬ Relation.TransGen (Feeds g.nodes.toList) n n := by
  intro cycle
  have reached : ∀ i < g.size, Acc (Feeds g.nodes.toList) (g.node i) := by
    refine w.induction fun i inside producers => Acc.intro _ ?_
    rintro m ⟨known, -, edge⟩
    obtain ⟨j, lt, rfl⟩ := exists_node_eq (Array.mem_toList_iff.mp known)
    exact producers j ((w.mem_producersOf_iff inside lt).mpr edge)
  obtain ⟨m, ⟨known, -⟩, -⟩ := Relation.TransGen.head'_iff.mp cycle
  obtain ⟨i, inside, rfl⟩ := exists_node_eq (Array.mem_toList_iff.mp known)
  exact not_self_of_acc (reached i inside).transGen cycle

/-- Without a cycle the topological sort comes to every node. -/
theorem Linked.mem_dispatchOrder (l : g.Linked)
    (acyclic : ∀ n, ¬ Relation.TransGen (Feeds g.nodes.toList) n n) {i : Nat} (inside : i < g.size) :
    i ∈ g.dispatchOrder fun _ => true := by
  have order := isOrder_dispatchOrder l fun _ => true
  have : Std.Irrefl (Relation.TransGen (Feeds g.nodes.toList)) := ⟨acyclic⟩
  have : IsStrictOrder Node (Relation.TransGen (Feeds g.nodes.toList)) := {}
  have grounded := (List.finite_toSet g.nodes.toList).wellFoundedOn
    (r := Relation.TransGen (Feeds g.nodes.toList))
  have listed (k : Nat) (lt : k < g.size) : g.node k ∈ g.nodes.toList :=
    Array.mem_toList_iff.mpr (node_mem lt)
  have all : ∀ k < g.size, g.node k = g.node i → k ∈ g.dispatchOrder fun _ => true := by
    refine grounded.induction (P := fun n => ∀ k < g.size, g.node k = n →
      k ∈ g.dispatchOrder fun _ => true) (listed i inside) ?_
    rintro n - before k lt rfl
    -- the producers of a node come first in the well-founded order, so they are in the sort
    have producers : ∀ j ∈ g.producersOf k, j ∈ [] ∨ j ∈ g.dispatchOrder fun _ => true := by
      intro j producer
      have lt' := lt_size_of_mem_producersOf producer
      have edge := (l.mem_producersOf_iff lt lt').mp producer
      exact .inr (before _ (listed j lt') (.single ⟨listed j lt', listed k lt, edge⟩) j lt' rfl)
    simpa using order.maximal k lt rfl producers
  exact all i inside rfl

/-- The topological sort comes to all nodes exactly if there is no cycle. -/
theorem Linked.length_dispatchOrder_iff (l : g.Linked) :
    (g.dispatchOrder fun _ => true).length = g.size ↔
      ∀ n, ¬ Relation.TransGen (Feeds g.nodes.toList) n n := by
  refine ⟨fun all => { l with acyclic := all : g.Wired }.acyclic_feeds, fun acyclic => ?_⟩
  have order := isOrder_dispatchOrder l fun _ => true
  have most := (List.subperm_of_subset order.nodup fun i mem =>
    List.mem_range.mpr (order.alive i mem).1).length_le
  have least := (List.subperm_of_subset (List.nodup_range (n := g.size)) fun i mem =>
    l.mem_dispatchOrder acyclic (List.mem_range.mp mem)).length_le
  rw [List.length_range] at most least
  omega

/-! ## slots of given nodes -/

/-- The values that have a slot are the arguments and the outputs. -/
theorem exists_slot?_wire {v : ValueId} :
    (∃ slot, (wire nodes arguments).slot? v = some slot) ↔
      v ∈ arguments.map (·.1) ∨ v ∈ nodes.map (·.output) := by
  rw [← List.mem_append, ← slotValues_wire nodes arguments, Array.mem_toList_iff,
    ← Option.isSome_iff_exists, slot?, Array.findIdx?_isSome, Array.any_beq', Array.contains_iff_mem]

/-- The partition of a slot is that of the argument or of the node whose value it holds. -/
theorem slotPartition_wire {v : ValueId} {slot : Nat}
    (h : (wire nodes arguments).slot? v = some slot) :
    (∃ a ∈ arguments, a.1 = v ∧ (wire nodes arguments).slotPartition slot = a.2) ∨
      ∃ m ∈ nodes, m.output = v ∧ (wire nodes arguments).slotPartition slot = m.partition := by
  obtain ⟨inside, held⟩ := valueAt_of_slot? h
  have count : (wire nodes arguments).slotCount = arguments.length + nodes.length := by
    simp [slotCount, wire]
  have first : (wire nodes arguments).arguments.size = arguments.length := by simp [wire]
  rw [valueAt_wire] at held
  rw [count] at inside
  by_cases argument : slot < arguments.length
  · left
    refine ⟨arguments[slot], List.getElem_mem argument, ?_, ?_⟩
    · simpa [List.getElem?_append, argument] using held
    · simp [slotPartition, producer?, first, argument]
      simp [wire]
  · right
    have lt : slot - arguments.length < nodes.length := by omega
    refine ⟨nodes[slot - arguments.length], List.getElem_mem lt, ?_, ?_⟩
    · simpa [List.getElem?_append, argument, lt] using held
    · simp [slotPartition, producer?, first, argument, size_wire, inside]
      simp [wire, lt]

/-! ## the checks -/

/-- Nodes in order without a fault are well-formed. -/
theorem wellFormed_of_fault? (ascending : nodes.Pairwise fun a b => a.id.index ≤ b.id.index)
    (h : fault? nodes arguments = none) : WellFormed nodes arguments := by
  obtain ⟨arities, declared, produced, read, sorting⟩ := fault?_eq_none_iff.mp h
  obtain ⟨outputs_nodup, made⟩ := outputFault?_eq_none_iff.mp produced
  have arguments_nodup := (argumentFault?_eq_none_iff.mp declared).1
  have slots := firstInputFault?_eq_none_iff.mp read
  have linked := linked_wire arities declared produced read
  have apart : ∀ n ∈ nodes, ∀ a ∈ arguments, n.output ≠ a.1 := fun n known a mem same =>
    (made _ (List.mem_map_of_mem known)).2 (same ▸ List.mem_map_of_mem mem)
  exact
    { ids_nodup := by
        refine List.pairwise_map.mpr ((pairwise_of_nodeFault? ascending arities).imp ?_)
        intro a b lt same
        exact UInt32.lt_irrefl _ (same ▸ lt)
      arity := arity_of_nodeFault? arities
      arguments_nodup
      outputs_nodup
      made := fun n known => (made _ (List.mem_map_of_mem known)).2
      known := fun n known v mem => by
        obtain ⟨slot, found, -⟩ := slots n known v mem
        exact exists_slot?_wire.mp ⟨slot, found⟩
      argument_partition := by
        intro n known a mem edge
        obtain ⟨slot, found, same⟩ := slots n known a.1 edge
        rcases slotPartition_wire found with ⟨b, mem', value, partition⟩ | ⟨m, known', value, -⟩
        · rw [← same, partition, List.inj_on_of_nodup_map arguments_nodup mem' mem value]
        · exact absurd value (apart m known' a mem)
      producer_partition := by
        intro n known m known' edge
        obtain ⟨slot, found, same⟩ := slots n known m.output edge
        rcases slotPartition_wire found with ⟨b, mem, value, -⟩ | ⟨k, known'', value, partition⟩
        · exact absurd value.symm (apart m known' b mem)
        · rw [← same, partition, List.inj_on_of_nodup_map outputs_nodup known'' known' value]
      acyclic := linked.length_dispatchOrder_iff.mp sorting }

/-- Well-formed nodes pass every check. -/
theorem WellFormed.fault?_eq_none (h : WellFormed nodes arguments) : fault? nodes arguments = none := by
  have arities : nodeFault? nodes = none := nodeFault?_eq_none (List.pairwise_map.mp h.ids_nodup) h.arity
  have declared : argumentFault? [] arguments = none :=
    argumentFault?_eq_none_iff.mpr ⟨h.arguments_nodup, by simp⟩
  have produced : outputFault? arguments [] nodes = none := by
    refine outputFault?_eq_none_iff.mpr ⟨h.outputs_nodup, fun v mem => ⟨by simp, ?_⟩⟩
    obtain ⟨n, known, rfl⟩ := List.mem_map.mp mem
    exact h.made n known
  have read : firstInputFault? (wire nodes arguments) nodes = none := by
    refine firstInputFault?_eq_none_iff.mpr fun n known v edge => ?_
    obtain ⟨slot, found⟩ := exists_slot?_wire.mpr (h.known n known v edge)
    refine ⟨slot, found, ?_⟩
    rcases slotPartition_wire found with ⟨a, mem, rfl, partition⟩ | ⟨m, known', rfl, partition⟩
    · rw [partition, h.argument_partition n known a mem edge]
    · rw [partition, h.producer_partition n known m known' edge]
  have linked := linked_wire arities declared produced read
  exact fault?_eq_none_iff.mpr
    ⟨arities, declared, produced, read, linked.length_dispatchOrder_iff.mpr h.acyclic⟩

/-- A graph is built of exactly the well-formed nodes and arguments, in whatever order the nodes are
given. -/
theorem builds_iff_wellFormed (nodes : List Node) (arguments : List (ValueId × PartitionId)) :
    (∃ g, build nodes arguments = .ok g) ↔ WellFormed nodes arguments := by
  have same : (sortNodes nodes).Perm nodes := List.mergeSort_perm nodes _
  have built : (∃ g, build nodes arguments = .ok g) ↔ fault? (sortNodes nodes) arguments = none := by
    simp only [build]
    split
    · next fault => simp [fault]
    · next sane => simp [sane]
  rw [built]
  constructor
  · intro sane
    exact (wellFormed_of_fault? (ascending_sortNodes nodes) sane).perm same
  · intro h
    exact (h.perm same.symm).fault?_eq_none

end HomCircuit.Graph
