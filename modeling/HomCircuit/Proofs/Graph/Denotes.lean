import HomCircuit.Proofs.Graph.Wiring

/-!
# HomCircuit.Proofs.Graph.Denotes

The recursive evaluation of a graph, with no regard to slots or to the order of nodes.

```
an argument      denotes what was supplied for it
an output        denotes what its node makes of what its inputs denote
```

* `Graph.Denotes` — what the values of a graph denote;
* `Graph.Denotes.unique` — a value of a wired graph denotes one thing at most;
* `Graph.Denotes.related` — what two evaluations of a graph have in common;
* `Graph.Wired.denotes_output` — the same rule read along the slots of a node.
-/

namespace HomCircuit.Graph

variable {α : Type}

/-- What a value denotes, given what arguments denote and what nodes make of their inputs. -/
inductive Denotes (g : Graph) (argument : ValueId → PartitionId → α → Prop)
    (node : Node → List α → α → Prop) : ValueId → α → Prop
  | argument {v : ValueId} {partition : PartitionId} {a : α}
      (declared : (v, partition) ∈ g.arguments) (supplied : argument v partition a) :
      Denotes g argument node v a
  | node {n : Node} {inputs : List α} {a : α} (known : n ∈ g.nodes)
      (length : n.inputs.length = inputs.length)
      (read : ∀ q ∈ n.inputs.zip inputs, Denotes g argument node q.1 q.2)
      (made : node n inputs a) : Denotes g argument node n.output a

variable {g : Graph} {argument : ValueId → PartitionId → α → Prop} {node : Node → List α → α → Prop}

/-- More arguments and nodes denote more. -/
theorem Denotes.mono {argument' : ValueId → PartitionId → α → Prop}
    {node' : Node → List α → α → Prop}
    (arguments : ∀ v partition a, argument v partition a → argument' v partition a)
    (nodes : ∀ n inputs a, node n inputs a → node' n inputs a) {v : ValueId} {a : α}
    (h : g.Denotes argument node v a) : g.Denotes argument' node' v a := by
  induction h with
  | argument declared supplied => exact .argument declared (arguments _ _ _ supplied)
  | node known length _ made ih => exact .node known length ih (nodes _ _ _ made)

/-! ## values and slots -/

theorem Linked.valueAt_inj (w : g.Linked) {s t : Nat} (hs : s < g.slotCount) (ht : t < g.slotCount)
    (same : g.valueAt s = g.valueAt t) : s = t := by
  have found := w.slot?_valueAt hs
  rw [same, w.slot?_valueAt ht] at found
  exact (Option.some.inj found).symm

theorem exists_node_eq {n : Node} (known : n ∈ g.nodes) : ∃ i < g.size, g.node i = n := by
  obtain ⟨i, inside, rfl⟩ := Array.mem_iff_getElem.mp known
  exact ⟨i, inside, by simp [Graph.node, Array.getD, inside]⟩

theorem node_mem {i : Nat} (inside : i < g.size) : g.node i ∈ g.nodes := by
  change i < g.nodes.size at inside
  have eq : g.node i = g.nodes[i] := by simp [Graph.node, Array.getD, inside]
  rw [eq]
  exact Array.getElem_mem inside

/-- Two nodes with the same output are one. -/
theorem Wired.node_eq_of_output (w : g.Wired) {n m : Node} (hn : n ∈ g.nodes) (hm : m ∈ g.nodes)
    (same : n.output = m.output) : n = m := by
  obtain ⟨i, hi, rfl⟩ := exists_node_eq hn
  obtain ⟨j, hj, rfl⟩ := exists_node_eq hm
  rw [← w.valueAt_output i hi, ← w.valueAt_output j hj] at same
  have count := w.slotCount
  have slot := w.valueAt_inj (by simp only [outputSlot]; omega) (by simp only [outputSlot]; omega) same
  have : i = j := by
    simp only [outputSlot] at slot
    omega
  rw [this]

/-- No node makes an argument. -/
theorem Wired.output_ne_argument (w : g.Wired) {n : Node} (hn : n ∈ g.nodes)
    {a : ValueId × PartitionId} (ha : a ∈ g.arguments) : n.output ≠ a.1 := by
  obtain ⟨i, hi, rfl⟩ := exists_node_eq hn
  obtain ⟨k, hk, rfl⟩ := Array.mem_iff_getElem.mp ha
  intro same
  rw [← w.valueAt_output i hi, ← w.valueAt_argument k _ (Array.getElem?_eq_getElem hk)] at same
  have count := w.slotCount
  have slot := w.valueAt_inj (by simp only [outputSlot]; omega) (by omega) same
  simp only [outputSlot] at slot
  omega

/-- An argument has one partition. -/
theorem Wired.argument_eq (w : g.Wired) {a b : ValueId × PartitionId} (ha : a ∈ g.arguments)
    (hb : b ∈ g.arguments) (same : a.1 = b.1) : a = b := by
  obtain ⟨k, hk, rfl⟩ := Array.mem_iff_getElem.mp ha
  obtain ⟨m, hm, rfl⟩ := Array.mem_iff_getElem.mp hb
  rw [← w.valueAt_argument k _ (Array.getElem?_eq_getElem hk),
    ← w.valueAt_argument m _ (Array.getElem?_eq_getElem hm)] at same
  have count := w.slotCount
  have slot := w.valueAt_inj (by omega) (by omega) same
  subst slot
  rfl

/-! ## evaluation -/

/-- An output denotes what its node makes of what its inputs denote. -/
theorem Denotes.inputs (w : g.Wired) {n : Node} (known : n ∈ g.nodes) {a : α}
    (h : g.Denotes argument node n.output a) :
    ∃ inputs, List.Forall₂ (g.Denotes argument node) n.inputs inputs ∧ node n inputs a := by
  generalize same : n.output = v at h
  cases h with
  | argument declared => exact absurd same (w.output_ne_argument known declared)
  | @node m inputs a known' length read made =>
      obtain rfl := w.node_eq_of_output known known' same
      exact ⟨inputs, List.forall₂_iff_zip.mpr ⟨length, fun mem => read _ mem⟩, made⟩

/-- Inputs that can denote nothing else are the inputs that are denoted. -/
theorem eq_of_forall₂ {R : ValueId → α → Prop} {values : List ValueId} {as bs : List α}
    (only : List.Forall₂ (fun v a => ∀ b, R v b → a = b) values as)
    (read : List.Forall₂ R values bs) : as = bs := by
  induction only generalizing bs with
  | nil =>
      cases read
      rfl
  | cons first rest ih =>
      cases read with
      | cons first' rest' => rw [first _ first', ih rest']

/-- Two lists that go with one list go with each other. -/
theorem forall₂_of_common {β : Type} {P : ValueId → α → Prop} {Q : ValueId → β → Prop}
    {R : α → β → Prop} {values : List ValueId} {as : List α} {bs : List β}
    (left : List.Forall₂ P values as) (right : List.Forall₂ Q values bs)
    (both : ∀ v a b, v ∈ values → P v a → Q v b → R a b) : List.Forall₂ R as bs := by
  induction left generalizing bs with
  | nil =>
      cases right
      exact .nil
  | cons first rest ih =>
      cases right with
      | cons first' rest' =>
          exact .cons (both _ _ _ List.mem_cons_self first first')
            (ih rest' fun v a b mem => both v a b (List.mem_cons_of_mem _ mem))

/-- A value of a wired graph denotes one thing at most. -/
theorem Denotes.unique (w : g.Wired)
    (argument_unique : ∀ v partition a b, argument v partition a → argument v partition b → a = b)
    (node_unique : ∀ n inputs a b, node n inputs a → node n inputs b → a = b) {v : ValueId}
    {a b : α} (ha : g.Denotes argument node v a) (hb : g.Denotes argument node v b) : a = b := by
  induction ha generalizing b with
  | @argument v partition a declared supplied =>
      generalize same : v = u at hb
      cases hb with
      | @argument u partition' b declared' supplied' =>
          obtain ⟨-, rfl⟩ := Prod.mk.inj (w.argument_eq declared declared' same)
          rw [← same] at supplied'
          exact argument_unique _ _ _ _ supplied supplied'
      | node known' => exact absurd same.symm (w.output_ne_argument known' declared)
  | @node n inputs a known length read made ih =>
      obtain ⟨inputs', others, made'⟩ := hb.inputs w known
      have only : List.Forall₂ (fun v a => ∀ b, g.Denotes argument node v b → a = b) n.inputs
          inputs := List.forall₂_iff_zip.mpr ⟨length, fun mem b => ih _ mem⟩
      rw [← eq_of_forall₂ only others] at made'
      exact node_unique _ _ _ _ made made'

/-- Two evaluations of a graph are related in every value that needs a part of the nodes alone, if those
of its arguments are and the nodes of this part keep it. -/
theorem Denotes.related (w : g.Wired) {β : Type} {argument' : ValueId → PartitionId → β → Prop}
    {node' : Node → List β → β → Prop} {part : Node → Prop} {R : ValueId → α → β → Prop}
    (closed : ∀ n ∈ g.nodes, ∀ m ∈ g.nodes, part m → n.output ∈ m.inputs → part n)
    (arguments : ∀ input ∈ g.arguments, ∀ a b, argument input.1 input.2 a →
      argument' input.1 input.2 b → R input.1 a b)
    (nodes : ∀ n ∈ g.nodes, part n → ∀ as bs a b,
      List.Forall₂ (fun a b => ∃ v ∈ n.inputs, R v a b) as bs → node n as a → node' n bs b →
        R n.output a b)
    {v : ValueId} {a : α} {b : β} (h : g.Denotes argument node v a)
    (h' : g.Denotes argument' node' v b) (need : ∀ n ∈ g.nodes, n.output = v → part n) :
    R v a b := by
  induction h generalizing b with
  | @argument v partition a declared supplied =>
      generalize same : v = u at h'
      cases h' with
      | @argument u partition' b declared' supplied' =>
          obtain ⟨-, rfl⟩ := Prod.mk.inj (w.argument_eq declared declared' same)
          rw [← same] at supplied' ⊢
          exact arguments _ declared a b supplied supplied'
      | node known' => exact absurd same.symm (w.output_ne_argument known' declared)
  | @node n inputs a known length read made ih =>
      obtain ⟨inputs', others, made'⟩ := h'.inputs w known
      have mine := need n known rfl
      refine nodes n known mine inputs inputs' a b ?_ made made'
      have each : List.Forall₂ (fun v a => ∀ b, g.Denotes argument' node' v b →
          (∀ m ∈ g.nodes, m.output = v → part m) → R v a b) n.inputs inputs :=
        List.forall₂_iff_zip.mpr ⟨length, fun mem b => ih _ mem⟩
      refine forall₂_of_common each others fun v a b mem related denotes => ⟨v, mem, ?_⟩
      exact related b denotes fun m known' same => closed m known' n known mine (same ▸ mem)

/-- A node makes its output of what stands in the slots that it reads. -/
theorem Wired.denotes_output (w : g.Wired) {i : Nat} (inside : i < g.size) {inputs : List α} {a : α}
    (read : List.Forall₂ (fun slot b => g.Denotes argument node (g.valueAt slot) b) (g.inputsOf i)
      inputs)
    (made : node (g.node i) inputs a) :
    g.Denotes argument node (g.valueAt (g.outputSlot i)) a := by
  have values := w.inputs_values i inside
  have read' : List.Forall₂ (g.Denotes argument node) (g.node i).inputs inputs := by
    rw [← values]
    exact List.forall₂_map_left_iff.mpr read
  rw [w.valueAt_output i inside]
  refine .node (node_mem inside) read'.length_eq (fun q mem => ?_) made
  exact (List.forall₂_iff_zip.mp read').2 mem

/-- The slot of an argument. -/
theorem Wired.slot?_argument (w : g.Wired) {k : Nat} {a : ValueId × PartitionId}
    (found : g.arguments[k]? = some a) : g.slot? a.1 = some k := by
  obtain ⟨inside, -⟩ := Array.getElem?_eq_some_iff.mp found
  rw [← w.valueAt_argument k a found]
  exact w.slot?_valueAt (by rw [w.slotCount]; omega)

/-- The slot of an output. -/
theorem Wired.slot?_output (w : g.Wired) {i : Nat} (inside : i < g.size) :
    g.slot? (g.node i).output = some (g.outputSlot i) := by
  rw [← w.valueAt_output i inside]
  exact w.slot?_valueAt (by rw [w.slotCount]; exact Nat.add_lt_add_left inside _)

/-- What arguments satisfy and nodes keep, everything that is denoted satisfies in its slot. -/
theorem Denotes.fits (w : g.Wired) {fits : Nat → α → Prop}
    (arguments : ∀ k a x, g.arguments[k]? = some a → argument a.1 a.2 x → fits k x)
    (nodes : ∀ i < g.size, ∀ inputs x, List.Forall₂ fits (g.inputsOf i) inputs →
      node (g.node i) inputs x → fits (g.outputSlot i) x)
    {v : ValueId} {x : α} (h : g.Denotes argument node v x) :
    ∀ slot, g.slot? v = some slot → fits slot x := by
  induction h with
  | argument declared supplied =>
      obtain ⟨k, found⟩ := Array.mem_iff_getElem?.mp declared
      intro slot place
      obtain rfl := Option.some.inj ((w.slot?_argument found).symm.trans place)
      exact arguments k _ _ found supplied
  | @node n inputs x known length read made ih =>
      obtain ⟨i, inside, rfl⟩ := exists_node_eq known
      intro slot place
      obtain rfl := Option.some.inj ((w.slot?_output inside).symm.trans place)
      refine nodes i inside inputs x ?_ made
      have each : List.Forall₂ (fun v x => ∀ slot, g.slot? v = some slot → fits slot x)
          (g.node i).inputs inputs := List.forall₂_iff_zip.mpr ⟨length, fun mem => ih _ mem⟩
      rw [← w.inputs_values i inside, List.forall₂_map_left_iff] at each
      have placed := (List.forall₂_and_left _ _).mpr
        ⟨fun slot mem => w.slot?_valueAt (w.inputs_lt i slot mem).2, each⟩
      exact placed.imp fun slot x both => both.2 slot both.1

end HomCircuit.Graph
