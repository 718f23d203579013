import HomCircuit.Graph.Liveness
import HomCircuit.Proofs.Graph.Denotes

/-!
# HomCircuit.Proofs.Graph.Liveness

The marks of the nodes that requested values depend on: with a node, everything that it reads from
is marked.

* `Graph.getElem?_markFrom` — the worklist keeps marks, and marks what it is given;
* `Graph.closed_markFrom` — it stops only when producers of marked nodes are marked;
* `Graph.liveNodes_producer`, `Graph.liveNodes_closed` — the same for requested values;
* `Graph.Contributes` — a requested value is reachable from a node; these are the nodes that are marked
  (`Graph.Wired.marked_liveNodes_iff`).
-/

namespace HomCircuit.Graph

/-- Whether a node is marked. -/
def Marked (live : List Bool) (i : Nat) : Prop := live[i]? = some true

theorem marked_set {live : List Bool} {i j : Nat} :
    Marked (live.set i true) j ↔ (j = i ∧ i < live.length) ∨ Marked live j := by
  unfold Marked
  rw [List.getElem?_set]
  by_cases same : i = j
  · subst same
    by_cases inside : i < live.length <;> simp [inside]
  · simp [same, Ne.symm same]

theorem length_markFrom (g : Graph) (live : List Bool) (stack : List Nat) :
    (g.markFrom live stack).length = live.length := by
  fun_induction markFrom g live stack with
  | case1 live => rfl
  | case2 live i stack unmarked ih => simpa using ih
  | case3 live i stack other ih => exact ih

/-- Marks stay, and what stands on the worklist is marked. -/
theorem marked_markFrom (g : Graph) (live : List Bool) (stack : List Nat) {j : Nat}
    (h : Marked live j ∨ (j ∈ stack ∧ j < live.length)) : Marked (g.markFrom live stack) j := by
  fun_induction markFrom g live stack with
  | case1 live => simpa using h
  | case2 live i stack unmarked ih =>
      refine ih ?_
      rw [marked_set, List.length_set, List.mem_append]
      rcases h with marked | ⟨mem, inside⟩
      · exact .inl (.inr marked)
      · rcases List.mem_cons.mp mem with rfl | mem
        · exact .inl (.inl ⟨rfl, inside⟩)
        · exact .inr ⟨.inr mem, inside⟩
  | case3 live i stack other ih =>
      refine ih ?_
      rcases h with marked | ⟨mem, inside⟩
      · exact .inl marked
      · rcases List.mem_cons.mp mem with rfl | mem
        · left
          unfold Marked
          rw [List.getElem?_eq_getElem inside] at other ⊢
          simpa using other
        · exact .inr ⟨mem, inside⟩

/-- When the worklist is empty, producers of marked nodes are marked. -/
theorem closed_markFrom (g : Graph) (live : List Bool) (stack : List Nat)
    (size : live.length = g.size)
    (closed : ∀ i, Marked live i → ∀ j ∈ g.producersOf i, Marked live j ∨ j ∈ stack) :
    ∀ i, Marked (g.markFrom live stack) i →
      ∀ j ∈ g.producersOf i, Marked (g.markFrom live stack) j := by
  fun_induction markFrom g live stack with
  | case1 live => simpa using closed
  | case2 live i stack unmarked ih =>
      refine ih (by simpa using size) fun k marked j producer => ?_
      rw [marked_set, List.mem_append]
      rcases marked_set.mp marked with ⟨rfl, -⟩ | marked
      · exact .inr (.inl producer)
      · rcases closed k marked j producer with old | waits
        · exact .inl (.inr old)
        · rcases List.mem_cons.mp waits with rfl | waits
          · exact .inl (.inl ⟨rfl, by rw [size]; exact lt_size_of_mem_producersOf producer⟩)
          · exact .inr (.inr waits)
  | case3 live i stack other ih =>
      refine ih size fun k marked j producer => ?_
      rcases closed k marked j producer with old | waits
      · exact .inl old
      · rcases List.mem_cons.mp waits with rfl | waits
        · have inside : j < live.length := by
            rw [size]
            exact lt_size_of_mem_producersOf producer
          left
          unfold Marked
          rw [List.getElem?_eq_getElem inside] at other ⊢
          simpa using other
        · exact .inr waits

variable {g : Graph} {slots : List Nat}

theorem length_liveNodes (g : Graph) (slots : List Nat) : (g.liveNodes slots).length = g.size := by
  rw [liveNodes, length_markFrom, List.length_replicate]

/-- The producer of a requested value is live. -/
theorem liveNodes_producer {slot i : Nat} (mem : slot ∈ slots) (produced : g.producer? slot = some i)
    (inside : i < g.size) : Marked (g.liveNodes slots) i :=
  marked_markFrom _ _ _ (.inr ⟨List.mem_filterMap.mpr ⟨slot, mem, produced⟩, by simpa using inside⟩)

/-- With a node, its producers are live. -/
theorem liveNodes_closed {i j : Nat} (marked : Marked (g.liveNodes slots) i)
    (producer : j ∈ g.producersOf i) : Marked (g.liveNodes slots) j := by
  refine closed_markFrom g _ _ (by simp) (fun k old => ?_) i marked j producer
  simp [Marked, List.getElem?_replicate] at old

/-! ## what is marked -/

/-- The worklist marks nothing but what stands on it, and what that reads from. -/
theorem of_marked_markFrom {P : Nat → Prop} (closed : ∀ i, P i → ∀ j ∈ g.producersOf i, P j)
    {live : List Bool} {stack : List Nat} (old : ∀ i, Marked live i → P i)
    (waits : ∀ i ∈ stack, P i) : ∀ i, Marked (g.markFrom live stack) i → P i := by
  fun_induction markFrom g live stack with
  | case1 live => exact old
  | case2 live i stack unmarked ih =>
      obtain ⟨first, others⟩ := List.forall_mem_cons.mp waits
      refine ih (fun k marked => ?_) fun k mem => ?_
      · rcases marked_set.mp marked with ⟨rfl, -⟩ | before
        · exact first
        · exact old k before
      · rcases List.mem_append.mp mem with producer | mem
        · exact closed i first k producer
        · exact others k mem
  | case3 live i stack other ih => exact ih old fun k mem => waits k (List.mem_cons_of_mem _ mem)

/-- A requested value is reachable from a node: the node makes it, or makes an input of such a node. -/
inductive Contributes (g : Graph) (requested : List ValueId) : Node → Prop
  | asked {n : Node} (known : n ∈ g.nodes) (mem : n.output ∈ requested) : Contributes g requested n
  | read {n m : Node} (known : n ∈ g.nodes) (later : Contributes g requested m)
      (edge : n.output ∈ m.inputs) : Contributes g requested n

variable {requested : List ValueId}

theorem Contributes.mem_nodes {n : Node} (h : g.Contributes requested n) : n ∈ g.nodes := by
  cases h with
  | asked known => exact known
  | read known => exact known

/-- A slot is filled by the node whose output it holds. -/
theorem producer?_eq_some_iff {slot i : Nat} :
    g.producer? slot = some i ↔ i < g.size ∧ slot = g.outputSlot i := by
  unfold producer? outputSlot
  constructor
  · intro produced
    split at produced
    · contradiction
    · split at produced
      · obtain rfl := Option.some.inj produced
        omega
      · contradiction
  · rintro ⟨inside, rfl⟩
    rw [if_neg (by omega), if_pos (by omega), Nat.add_sub_cancel_left]

theorem producer?_outputSlot {i : Nat} (inside : i < g.size) :
    g.producer? (g.outputSlot i) = some i :=
  producer?_eq_some_iff.mpr ⟨inside, rfl⟩

/-- A node reads from the nodes that make its inputs. -/
theorem Linked.mem_producersOf_iff (w : g.Linked) {i j : Nat} (hi : i < g.size) (hj : j < g.size) :
    j ∈ g.producersOf i ↔ (g.node j).output ∈ (g.node i).inputs := by
  rw [← w.inputs_values i hi, ← w.valueAt_output j hj, List.mem_map]
  constructor
  · intro mem
    obtain ⟨slot, read, produced⟩ := List.mem_filterMap.mp mem
    obtain ⟨-, rfl⟩ := producer?_eq_some_iff.mp produced
    exact ⟨_, read, rfl⟩
  · rintro ⟨slot, read, same⟩
    have inside : g.outputSlot j < g.slotCount := by
      rw [w.slotCount]
      exact Nat.add_lt_add_left hj _
    obtain rfl := w.valueAt_inj (w.inputs_lt i slot read).2 inside same
    exact List.mem_filterMap.mpr ⟨_, read, producer?_outputSlot hj⟩

/-- The marked nodes are those from which a requested value is reachable. -/
theorem Wired.marked_liveNodes_iff (w : g.Wired)
    (asked : ∀ slot, slot ∈ slots ↔ ∃ v ∈ requested, g.slot? v = some slot) {i : Nat}
    (inside : i < g.size) :
    Marked (g.liveNodes slots) i ↔ g.Contributes requested (g.node i) := by
  constructor
  · intro marked
    have reached : ∀ j, Marked (g.liveNodes slots) j →
        j < g.size ∧ g.Contributes requested (g.node j) := by
      refine of_marked_markFrom (fun j reached k producer => ?_) (fun j old => ?_) fun j mem => ?_
      · have lt := lt_size_of_mem_producersOf producer
        exact ⟨lt, .read (node_mem lt) reached.2 ((w.mem_producersOf_iff reached.1 lt).mp producer)⟩
      · simp [Marked, List.getElem?_replicate] at old
      · obtain ⟨slot, mem, produced⟩ := List.mem_filterMap.mp mem
        obtain ⟨lt, rfl⟩ := producer?_eq_some_iff.mp produced
        obtain ⟨v, mem, found⟩ := (asked _).mp mem
        refine ⟨lt, .asked (node_mem lt) ?_⟩
        rwa [← w.valueAt_output j lt, (valueAt_of_slot? found).2]
    exact (reached i marked).2
  · intro contributes
    generalize same : g.node i = n at contributes
    induction contributes generalizing i with
    | asked known mem =>
        subst same
        exact liveNodes_producer ((asked _).mpr ⟨_, mem, w.slot?_output inside⟩)
          (producer?_outputSlot inside) inside
    | read known later edge ih =>
        subst same
        obtain ⟨k, lt, rfl⟩ := exists_node_eq later.mem_nodes
        exact liveNodes_closed (ih lt rfl) ((w.mem_producersOf_iff lt inside).mpr edge)

end HomCircuit.Graph
