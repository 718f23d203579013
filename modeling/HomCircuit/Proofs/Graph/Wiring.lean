import Mathlib
import HomCircuit.Graph.Basic

/-!
# HomCircuit.Proofs.Graph.Wiring

What the checks of `Graph.build` leave: a graph whose slots, edges and values fit together.

```
slot k < arguments          its value is the k-th argument
slot arguments + i          its value is the output of node i
```

* `Graph.Linked`, `Graph.Wired` — how slots, edges and values of a graph fit together;
* `Graph.fault?_eq_none_iff` — nothing is wrong if no check finds a fault, with what each check leaves;
* `Graph.wired_of_build` — every graph that is built is wired.
-/

namespace HomCircuit.Graph

/-! ## what each check leaves -/

theorem arity_of_nodeFault? {nodes : List Node} (h : nodeFault? nodes = none) :
    ∀ n ∈ nodes, n.inputs.length = n.op.arity := by
  induction nodes with
  | nil => simp
  | cons n rest ih =>
      simp only [nodeFault?] at h
      split at h
      · contradiction
      · rename_i fits
        refine List.forall_mem_cons.mpr ⟨not_not.mp fits, ?_⟩
        split at h
        · split at h
          · contradiction
          · exact ih h
        · simp

theorem nodeFault?_eq_none {nodes : List Node} (apart : nodes.Pairwise fun a b => a.id ≠ b.id)
    (arity : ∀ n ∈ nodes, n.inputs.length = n.op.arity) : nodeFault? nodes = none := by
  induction nodes with
  | nil => rfl
  | cons n rest ih =>
      obtain ⟨first, apart⟩ := List.pairwise_cons.mp apart
      obtain ⟨fits, arity⟩ := List.forall_mem_cons.mp arity
      cases rest with
      | nil => simp [nodeFault?, fits]
      | cons m others =>
          have other : m.id ≠ n.id := (first m List.mem_cons_self).symm
          unfold nodeFault?
          rw [if_neg (not_not.mpr fits)]
          dsimp only
          rw [if_neg other]
          exact ih apart arity

theorem argumentFault?_eq_none_iff {arguments : List (ValueId × PartitionId)} {seen : List ValueId} :
    argumentFault? seen arguments = none ↔
      (arguments.map (·.1)).Nodup ∧ ∀ v ∈ arguments.map (·.1), v ∉ seen := by
  induction arguments generalizing seen with
  | nil => simp [argumentFault?]
  | cons a rest ih =>
      simp only [argumentFault?, List.map_cons, List.nodup_cons, List.forall_mem_cons]
      split
      · next old => simp [old]
      · next fresh =>
          rw [ih]
          constructor
          · rintro ⟨nodup, apart⟩
            refine ⟨⟨fun mem => apart _ mem List.mem_cons_self, nodup⟩, fresh, fun v mem old => ?_⟩
            exact apart v mem (List.mem_cons_of_mem _ old)
          · rintro ⟨⟨first, nodup⟩, -, apart⟩
            refine ⟨nodup, fun v mem old => ?_⟩
            rcases List.mem_cons.mp old with rfl | old
            · exact first mem
            · exact apart v mem old

theorem outputFault?_eq_none_iff {arguments : List (ValueId × PartitionId)} {before nodes : List Node} :
    outputFault? arguments before nodes = none ↔
      (nodes.map (·.output)).Nodup ∧
        ∀ v ∈ nodes.map (·.output), v ∉ before.map (·.output) ∧ v ∉ arguments.map (·.1) := by
  induction nodes generalizing before with
  | nil => simp [outputFault?]
  | cons n rest ih =>
      simp only [outputFault?, List.map_cons, List.nodup_cons, List.forall_mem_cons]
      split
      · next m found =>
          have made : n.output ∈ before.map (·.output) :=
            List.mem_map.mpr ⟨m, List.mem_of_find?_eq_some found, by simpa using List.find?_some found⟩
          simp [made]
      · next unmade =>
          have unseen : n.output ∉ before.map (·.output) := by
            simpa [List.find?_eq_none] using unmade
          split
          · next declared =>
              have supplied : n.output ∈ arguments.map (·.1) := by simpa using declared
              simp [supplied]
          · next free =>
              have undeclared : n.output ∉ arguments.map (·.1) := by simpa using free
              rw [ih]
              simp only [List.map_append, List.map_cons, List.map_nil, List.mem_append,
                List.mem_singleton, not_or]
              constructor
              · rintro ⟨nodup, apart⟩
                refine ⟨⟨fun mem => (apart _ mem).1.2 rfl, nodup⟩, ⟨unseen, undeclared⟩, ?_⟩
                exact fun v mem => ⟨(apart v mem).1.1, (apart v mem).2⟩
              · rintro ⟨⟨first, nodup⟩, -, apart⟩
                refine ⟨nodup, fun v mem => ⟨⟨(apart v mem).1, ?_⟩, (apart v mem).2⟩⟩
                rintro rfl
                exact first mem

theorem inputFault?_eq_none_iff {g : Graph} {n : Node} {values : List ValueId} :
    inputFault? g n values = none ↔
      ∀ v ∈ values, ∃ slot, g.slot? v = some slot ∧ g.slotPartition slot = n.inputPartition := by
  induction values with
  | nil => simp [inputFault?]
  | cons v rest ih =>
      simp only [inputFault?, List.forall_mem_cons]
      split
      · next missing => simp [missing]
      · next slot found =>
          split
          · next other => simp [found, other]
          · next same => simp [found, not_not.mp same, ih]

theorem firstInputFault?_eq_none_iff {g : Graph} {nodes : List Node} :
    firstInputFault? g nodes = none ↔
      ∀ n ∈ nodes, ∀ v ∈ n.inputs,
        ∃ slot, g.slot? v = some slot ∧ g.slotPartition slot = n.inputPartition := by
  induction nodes with
  | nil => simp [firstInputFault?]
  | cons n rest ih =>
      simp only [firstInputFault?, Option.orElse_eq_orElse, Option.orElse_eq_or,
        Option.or_eq_none_iff, List.forall_mem_cons, inputFault?_eq_none_iff, ih]

/-- Nothing is wrong exactly if no check finds a fault. -/
theorem fault?_eq_none_iff {nodes : List Node} {arguments : List (ValueId × PartitionId)} :
    fault? nodes arguments = none ↔
      nodeFault? nodes = none ∧ argumentFault? [] arguments = none ∧
        outputFault? arguments [] nodes = none ∧
        firstInputFault? (wire nodes arguments) nodes = none ∧
        ((wire nodes arguments).dispatchOrder fun _ => true).length = (wire nodes arguments).size := by
  simp only [fault?, Option.orElse_eq_orElse, Option.orElse_eq_or, Option.or_eq_none_iff,
    ite_eq_left_iff, reduceCtorEq, imp_false, not_not]

/-! ## consumers -/

/-- Adding the consumer of some edges, one by one. -/
theorem size_addConsumer (g : Graph) (d : Array (List Nat)) (i : Nat) :
    (g.addConsumer d i).size = d.size := by
  unfold addConsumer
  generalize g.producersOf i = producers
  induction producers generalizing d with
  | nil => rfl
  | cons p rest ih => rw [List.foldl_cons, ih, Array.size_modify]

/-- A consumer is added once for every edge. -/
theorem count_addConsumer (g : Graph) (d : Array (List Nat)) (i j k : Nat) (inside : j < d.size) :
    ((g.addConsumer d i).getD j []).count k =
      (d.getD j []).count k + if k = i then (g.producersOf i).count j else 0 := by
  unfold addConsumer
  generalize g.producersOf i = producers
  induction producers generalizing d with
  | nil => simp
  | cons p rest ih =>
      rw [List.foldl_cons, ih _ (by simpa using inside)]
      by_cases hj : p = j
      · subst hj
        by_cases hk : k = i <;> simp [Array.getD, inside, hk] <;> grind
      · by_cases hk : k = i <;> simp [Array.getD, inside, hj, hk, Array.getElem_modify]

theorem size_foldl_addConsumer (g : Graph) (indices : List Nat) (d : Array (List Nat)) :
    (indices.foldl g.addConsumer d).size = d.size := by
  induction indices generalizing d with
  | nil => rfl
  | cons i rest ih => rw [List.foldl_cons, ih, size_addConsumer]

theorem count_foldl_addConsumer (g : Graph) {indices : List Nat} (nodup : indices.Nodup)
    (d : Array (List Nat)) (j k : Nat) (inside : j < d.size) :
    ((indices.foldl g.addConsumer d).getD j []).count k =
      (d.getD j []).count k + if k ∈ indices then (g.producersOf k).count j else 0 := by
  induction indices generalizing d with
  | nil => simp
  | cons i rest ih =>
      obtain ⟨fresh, nodup⟩ := List.nodup_cons.mp nodup
      rw [List.foldl_cons, ih nodup _ (by rwa [size_addConsumer]), count_addConsumer _ _ _ _ _ inside]
      by_cases hk : k = i
      · subst hk
        simp [fresh]
      · simp [hk]

/-! ## wired graphs -/

/-- The value in a slot. -/
def valueAt (g : Graph) (slot : Nat) : ValueId := g.slotValues.getD slot default

/-- How slots, edges and values of a graph fit together, whether or not it has a cycle. -/
structure Linked (g : Graph) : Prop where
  /-- Arguments come first, then the output of each node. -/
  slotCount : g.slotCount = g.arguments.size + g.size
  /-- No value stands in two slots. -/
  distinct : g.slotValues.toList.Nodup
  valueAt_argument : ∀ k, ∀ a, g.arguments[k]? = some a → g.valueAt k = a.1
  valueAt_output : ∀ i < g.size, g.valueAt (g.outputSlot i) = (g.node i).output
  /-- Only nodes read slots, and all slots that are read exist. -/
  inputs_lt : ∀ i, ∀ slot ∈ g.inputsOf i, i < g.size ∧ slot < g.slotCount
  /-- The slots that a node reads hold its inputs in order. -/
  inputs_values : ∀ i < g.size, (g.inputsOf i).map g.valueAt = (g.node i).inputs
  /-- A node has as many inputs as its operation takes. -/
  arity : ∀ i < g.size, (g.node i).inputs.length = (g.node i).op.arity
  /-- Edges do not leave the partition that the reader expects. -/
  inputs_partition : ∀ i < g.size, ∀ slot ∈ g.inputsOf i,
    g.slotPartition slot = (g.node i).inputPartition
  /-- Consumers and producers tell of the same edges. -/
  count_dependents : ∀ i j, (g.dependentsOf j).count i = (g.producersOf i).count j

/-- A linked graph in which every node has its place in the dispatch order. -/
structure Wired (g : Graph) : Prop extends Linked g where
  acyclic : (g.dispatchOrder fun _ => true).length = g.size

theorem lt_size_of_mem_producersOf {g : Graph} {i j : Nat} (h : j ∈ g.producersOf i) :
    j < g.size := by
  obtain ⟨slot, -, produced⟩ := List.mem_filterMap.mp h
  simp only [producer?] at produced
  split at produced
  · contradiction
  · split at produced
    · simp only [Option.some.injEq] at produced
      omega
    · contradiction

/-- The slot that is found for a value holds it. -/
theorem valueAt_of_slot? {g : Graph} {v : ValueId} {slot : Nat} (h : g.slot? v = some slot) :
    slot < g.slotCount ∧ g.valueAt slot = v := by
  obtain ⟨inside, found, -⟩ := Array.findIdx?_eq_some_iff_getElem.mp h
  refine ⟨inside, ?_⟩
  simpa [valueAt, Array.getD, inside] using found

/-- A value is found in its only slot. -/
theorem Linked.slot?_valueAt {g : Graph} (w : g.Linked) {slot : Nat} (inside : slot < g.slotCount) :
    g.slot? (g.valueAt slot) = some slot := by
  change slot < g.slotValues.size at inside
  have held : g.slotValues[slot] = g.valueAt slot := by simp [valueAt, Array.getD, inside]
  refine Array.findIdx?_eq_some_iff_getElem.mpr ⟨inside, by simp [held], fun j before => ?_⟩
  have apart : g.slotValues[j] ≠ g.slotValues[slot] := fun same => by
    have lt : j < g.slotValues.toList.length := by
      rw [Array.length_toList]
      omega
    have lt' : slot < g.slotValues.toList.length := by rwa [Array.length_toList]
    have same' : g.slotValues.toList[j] = g.slotValues.toList[slot] := by simpa using same
    have := (List.Nodup.getElem_inj_iff w.distinct).mp same'
    omega
  simpa [held] using apart

/-! ## built graphs -/

section Wire

variable (nodes : List Node) (arguments : List (ValueId × PartitionId))

theorem size_wire : (wire nodes arguments).size = nodes.length := by simp [wire, size]

theorem slotValues_wire :
    (wire nodes arguments).slotValues.toList = arguments.map (·.1) ++ nodes.map (·.output) := by
  simp [wire]

theorem valueAt_wire (slot : Nat) :
    (wire nodes arguments).valueAt slot =
      (arguments.map (·.1) ++ nodes.map (·.output)).getD slot default := by
  simp [valueAt, ← slotValues_wire]

theorem node_wire {i : Nat} (inside : i < nodes.length) :
    (wire nodes arguments).node i = nodes[i] := by
  simp [node, wire, inside]

theorem inputsOf_wire (i : Nat) :
    (wire nodes arguments).inputsOf i =
      ((nodes[i]?).map fun n => n.inputs.filterMap (wire nodes arguments).slot?).getD [] := by
  simp only [inputsOf, Array.getD_eq_getD_getElem?]
  simp only [wire, List.map_toArray, List.getElem?_toArray, List.getElem?_map]
  rfl

theorem count_dependents_wire (i j : Nat) :
    ((wire nodes arguments).dependentsOf j).count i =
      ((wire nodes arguments).producersOf i).count j := by
  let g := wire nodes arguments
  have folded : g.dependents =
      (List.range g.size).foldl g.addConsumer (Array.replicate g.size []) := rfl
  change (g.dependentsOf j).count i = (g.producersOf i).count j
  by_cases inside : j < g.size
  · have counted := count_foldl_addConsumer g (List.nodup_range (n := g.size))
      (Array.replicate g.size []) j i (by simpa using inside)
    rw [dependentsOf, folded, counted]
    by_cases known : i < g.size
    · simp [Array.getD, inside, known]
    · have none : g.producersOf i = [] := by
        have beyond : nodes[i]? = none := by simpa [g, size_wire] using known
        simp [producersOf, g, inputsOf_wire, beyond]
      simp [Array.getD, inside, known, none]
  · have unread : j ∉ g.producersOf i := fun mem => inside (lt_size_of_mem_producersOf mem)
    have absent : g.dependentsOf j = [] := by
      have beyond : ¬j < g.dependents.size := by
        rw [folded, size_foldl_addConsumer]
        simpa using inside
      simp [dependentsOf, Array.getD, beyond]
    rw [absent, List.count_eq_zero.mpr unread, List.count_nil]

end Wire

/-- Inputs that are all known are found one by one. -/
theorem map_valueAt_filterMap_slot? {g : Graph} {values : List ValueId}
    (known : ∀ v ∈ values, ∃ slot, g.slot? v = some slot) :
    (values.filterMap g.slot?).map g.valueAt = values := by
  induction values with
  | nil => rfl
  | cons v rest ih =>
      obtain ⟨⟨slot, found⟩, others⟩ := List.forall_mem_cons.mp known
      rw [List.filterMap_cons_some found, List.map_cons, ih others, (valueAt_of_slot? found).2]

theorem mem_sortNodes {nodes : List Node} {n : Node} : n ∈ sortNodes nodes ↔ n ∈ nodes := by
  simp [sortNodes]

theorem ascending_sortNodes (nodes : List Node) :
    (sortNodes nodes).Pairwise fun a b => a.id.index ≤ b.id.index := by
  have sorted : (sortNodes nodes).Pairwise fun a b => decide (a.id.index ≤ b.id.index) = true :=
    List.pairwise_mergeSort
      (fun a b c ab bc => by
        simp only [decide_eq_true_eq] at ab bc ⊢
        exact UInt32.le_trans ab bc)
      (fun a b => by simpa using UInt32.le_total a.id.index b.id.index) nodes
  exact sorted.imp of_decide_eq_true

/-- Nodes that are in order stay where they are. -/
theorem sortNodes_of_ascending {nodes : List Node}
    (ascending : nodes.Pairwise fun a b => a.id.index ≤ b.id.index) : sortNodes nodes = nodes :=
  List.mergeSort_of_pairwise (by simpa using ascending)

/-- Nodes in order and arguments without a fault make the graph that they wire. -/
theorem build_eq_ok {nodes : List Node} {arguments : List (ValueId × PartitionId)}
    (ascending : nodes.Pairwise fun a b => a.id.index ≤ b.id.index)
    (sane : fault? nodes arguments = none) : build nodes arguments = .ok (wire nodes arguments) := by
  simp only [build, sortNodes_of_ascending ascending, sane]

/-- What passes the checks before the last one wires a linked graph. -/
theorem linked_wire {nodes : List Node} {arguments : List (ValueId × PartitionId)}
    (arities : nodeFault? nodes = none) (declared : argumentFault? [] arguments = none)
    (produced : outputFault? arguments [] nodes = none)
    (read : firstInputFault? (wire nodes arguments) nodes = none) :
    (wire nodes arguments).Linked := by
  have values := slotValues_wire nodes arguments
  have size := size_wire nodes arguments
  have at_slot := valueAt_wire nodes arguments
  have nodes_eq (i : Nat) (inside : i < nodes.length) := node_wire nodes arguments inside
  have inputs := inputsOf_wire nodes arguments
  have edges := count_dependents_wire nodes arguments
  have declarations : (wire nodes arguments).arguments.toList = arguments := rfl
  have known := firstInputFault?_eq_none_iff.mp read
  have outputs := outputFault?_eq_none_iff.mp produced
  generalize wire nodes arguments = g at *
  have slots : g.slotCount = g.arguments.size + g.size := by
    have : g.slotValues.toList.length = g.arguments.toList.length + nodes.length := by
      simp [values, declarations]
    simpa [slotCount, size] using this
  have outside {i : Nat} (beyond : ¬i < g.size) : g.inputsOf i = [] := by
    have : nodes[i]? = none := by simpa [size] using beyond
    rw [inputs, this]
    rfl
  have inside_eq {i : Nat} (inside : i < g.size) :
      g.node i ∈ nodes ∧ g.inputsOf i = (g.node i).inputs.filterMap g.slot? := by
    have inside' : i < nodes.length := by omega
    rw [inputs, nodes_eq i inside', List.getElem?_eq_getElem inside']
    exact ⟨List.getElem_mem inside', rfl⟩
  exact
    { slotCount := slots
      distinct := by
        rw [values]
        refine List.nodup_append'.mpr ⟨(argumentFault?_eq_none_iff.mp declared).1,
          outputs.1, fun v declared' produced' => ?_⟩
        exact (outputs.2 v produced').2 declared'
      valueAt_argument := by
        intro k a found
        have found' : arguments[k]? = some a := by
          rw [← declarations]
          simpa using found
        obtain ⟨inside, rfl⟩ := List.getElem?_eq_some_iff.mp found'
        simp [at_slot, List.getElem?_append, inside]
      valueAt_output := by
        intro i inside
        have inside' : i < nodes.length := by omega
        have counted : g.arguments.size = arguments.length := by
          rw [← declarations, Array.length_toList]
        rw [at_slot, nodes_eq i inside']
        simp [outputSlot, counted, inside']
      inputs_lt := by
        intro i slot mem
        by_cases inside : i < g.size
        · rw [(inside_eq inside).2] at mem
          obtain ⟨v, -, found⟩ := List.mem_filterMap.mp mem
          exact ⟨inside, (valueAt_of_slot? found).1⟩
        · simp [outside inside] at mem
      inputs_values := by
        intro i inside
        obtain ⟨mem, slots_eq⟩ := inside_eq inside
        rw [slots_eq]
        refine map_valueAt_filterMap_slot? fun v hv => ?_
        obtain ⟨slot, found, -⟩ := known _ mem v hv
        exact ⟨slot, found⟩
      arity := fun i inside => arity_of_nodeFault? arities _ (inside_eq inside).1
      inputs_partition := by
        intro i inside slot read
        obtain ⟨mem, slots_eq⟩ := inside_eq inside
        rw [slots_eq] at read
        obtain ⟨v, hv, found⟩ := List.mem_filterMap.mp read
        obtain ⟨slot', found', same⟩ := known _ mem v hv
        rw [found] at found'
        obtain rfl := Option.some.inj found'
        exact same
      count_dependents := edges }

/-- Every graph that is built is wired. -/
theorem wired_of_build {nodes : List Node} {arguments : List (ValueId × PartitionId)} {g : Graph}
    (h : build nodes arguments = .ok g) : g.Wired := by
  simp only [build] at h
  split at h
  · contradiction
  · next sane =>
      obtain ⟨arities, declared, produced, read, sorting⟩ := fault?_eq_none_iff.mp sane
      rw [← Except.ok.inj h]
      exact { linked_wire arities declared produced read with acyclic := sorting }

/-! ## numbers of nodes -/

/-- Sorted nodes without a fault have numbers that ascend strictly. -/
theorem pairwise_of_nodeFault? {nodes : List Node}
    (ascending : nodes.Pairwise fun a b => a.id.index ≤ b.id.index)
    (h : nodeFault? nodes = none) : nodes.Pairwise fun a b => a.id.index < b.id.index := by
  induction nodes with
  | nil => exact .nil
  | cons n rest ih =>
      obtain ⟨least, ascending'⟩ := List.pairwise_cons.mp ascending
      simp only [nodeFault?] at h
      split at h
      · contradiction
      · cases rest with
        | nil => exact List.pairwise_singleton _ _
        | cons m others =>
            dsimp only at h
            split at h
            · contradiction
            · next apart =>
                have rest := ih ascending' h
                have first : n.id.index < m.id.index :=
                  UInt32.lt_of_le_of_ne (least m List.mem_cons_self) fun same =>
                    apart (congrArg NodeId.mk same.symm)
                refine List.pairwise_cons.mpr ⟨List.forall_mem_cons.mpr ⟨first, fun x mem => ?_⟩, rest⟩
                exact UInt32.lt_trans first ((List.pairwise_cons.mp rest).1 x mem)

/-- The nodes of a graph that was built stand in order of their numbers. -/
theorem number_lt_of_build {nodes : List Node} {arguments : List (ValueId × PartitionId)} {g : Graph}
    (h : build nodes arguments = .ok g) {i j : Nat} (before : i < j) (inside : j < g.size) :
    (g.node i).id.index < (g.node j).id.index := by
  have ascending := ascending_sortNodes nodes
  simp only [build] at h
  generalize sortNodes nodes = sorted at h ascending
  cases fault : fault? sorted arguments with
  | some f => simp [fault] at h
  | none =>
      simp only [fault, Except.ok.injEq] at h
      subst h
      have sound := (fault?_eq_none_iff.mp fault).1
      have strict := List.pairwise_iff_getElem.mp (pairwise_of_nodeFault? ascending sound)
      rw [size_wire] at inside
      rw [node_wire sorted arguments (before.trans inside), node_wire sorted arguments inside]
      exact strict i j (before.trans inside) inside before

/-- The nodes of a graph that was built have numbers of their own. -/
theorem node_inj_of_build {nodes : List Node} {arguments : List (ValueId × PartitionId)} {g : Graph}
    (h : build nodes arguments = .ok g) {i j : Nat} (hi : i < g.size) (hj : j < g.size)
    (same : (g.node i).id = (g.node j).id) : i = j := by
  cases Nat.lt_trichotomy i j with
  | inl before => exact absurd (same ▸ number_lt_of_build h before hj) (UInt32.lt_irrefl _)
  | inr rest =>
      cases rest with
      | inl equal => exact equal
      | inr after => exact absurd (same ▸ number_lt_of_build h after hi) (UInt32.lt_irrefl _)

end HomCircuit.Graph
