import HomCircuit.Proofs.Graph.Liveness
import HomCircuit.Proofs.Graph.Order

/-!
# HomCircuit.Proofs.Graph.LeastOrder

The dispatch order of a graph under any marks, said without counts and ready nodes.

```
i reads from j   ↔   the output of j is an input of i
i is supported   ↔   i, and all that it reads from, directly or along others, is live
```

The supported nodes are those that an order of live nodes can hold.  Of all their orders in which a
node stands after those that it reads from, the dispatch order is the first by the numbers of nodes:
where another one parts from it, that one goes on with a node that could have stood there too, and the
sort had taken the least of these.

* `Graph.Supported`, `Graph.TopologicalOrder` — which nodes are ordered, and how;
* `Graph.Wired.mem_dispatchOrder_iff` — the sort comes to the supported nodes, marks closed under
  producers or not;
* `Graph.Greedy` — a list goes on with the least node that can stand there;
* `Graph.order_least` — the dispatch order is the least of all topological orders.
-/

namespace HomCircuit.Graph

/-! ## topological orders -/

/-- The output of one node is an input of another. -/
def ReadsFrom (g : Graph) (i j : Nat) : Prop :=
  i < g.size ∧ j < g.size ∧ (g.node j).output ∈ (g.node i).inputs

/-- A node is live, and so are all nodes that it reads from, directly or along others. -/
def Supported (g : Graph) (live : Nat → Bool) (i : Nat) : Prop :=
  i < g.size ∧ ∀ j, Relation.ReflTransGen g.ReadsFrom i j → live j = true

/-- One node has a lower number than another. -/
def Precedes (g : Graph) (i j : Nat) : Prop := (g.node i).id.index < (g.node j).id.index

/-- Some nodes, each once and after all those that it reads from. -/
structure TopologicalOrder (g : Graph) (among : Nat → Prop) (order : List Nat) : Prop where
  nodup : order.Nodup
  mem_iff : ∀ i, i ∈ order ↔ among i
  sorted : ∀ front i back, order = front ++ i :: back → ∀ j, g.ReadsFrom i j → j ∈ front

variable {g : Graph} {live : Nat → Bool} {among : Nat → Prop} {done order other : List Nat}
  {i j : Nat}

theorem Linked.readsFrom_iff (w : g.Linked) : g.ReadsFrom i j ↔ j ∈ g.producersOf i := by
  constructor
  · intro ⟨hi, hj, edge⟩
    exact (w.mem_producersOf_iff hi hj).mpr edge
  · intro producer
    have hj := lt_size_of_mem_producersOf producer
    obtain ⟨slot, read, -⟩ := List.mem_filterMap.mp producer
    have hi := (w.inputs_lt i slot read).1
    exact ⟨hi, hj, (w.mem_producersOf_iff hi hj).mp producer⟩

/-- A node is supported if it is live and those that it reads from are supported. -/
theorem Supported.of_producers (inside : i < g.size) (alive : live i = true)
    (producers : ∀ j, g.ReadsFrom i j → g.Supported live j) : g.Supported live i := by
  constructor
  · exact inside
  · intro j reached
    cases Relation.ReflTransGen.cases_head reached with
    | inl same => exact same ▸ alive
    | inr far =>
        obtain ⟨k, edge, rest⟩ := far
        exact (producers k edge).2 j rest

/-- With a node, those that it reads from are supported. -/
theorem Supported.producer (h : g.Supported live i) (edge : g.ReadsFrom i j) :
    g.Supported live j :=
  ⟨edge.2.1, fun k reached => h.2 k (.head edge reached)⟩

/-- The sort comes to the supported nodes, and to no others. -/
theorem Wired.mem_dispatchOrder_iff (w : g.Wired) :
    i ∈ g.dispatchOrder live ↔ g.Supported live i := by
  have sort := isOrder_dispatchOrder w.toLinked live
  constructor
  · intro mem
    have inside := (sort.alive i mem).1
    revert mem
    apply w.induction (motive := fun i => i ∈ g.dispatchOrder live → g.Supported live i) _ i inside
    intro i inside ih mem
    obtain ⟨front, back, split⟩ := List.append_of_mem mem
    apply Supported.of_producers inside (sort.alive i mem).2
    intro j edge
    have producer := w.readsFrom_iff.mp edge
    have first : j ∈ front := by simpa using sort.before front i back split j producer
    exact ih j producer (by simp [split, first])
  · intro supported
    have inside := supported.1
    revert supported
    apply w.induction (motive := fun i => g.Supported live i → i ∈ g.dispatchOrder live) _ i inside
    intro i inside ih supported
    have producers : ∀ j ∈ g.producersOf i, j ∈ [] ∨ j ∈ g.dispatchOrder live := fun j producer =>
      .inr (ih j producer (supported.producer (w.readsFrom_iff.mpr producer)))
    simpa using sort.maximal i inside (supported.2 i .refl) producers

/-- The dispatch order is a topological order of the supported nodes. -/
theorem Wired.topologicalOrder (w : g.Wired) (live : Nat → Bool) :
    g.TopologicalOrder (g.Supported live) (g.dispatchOrder live) where
  nodup := (isOrder_dispatchOrder w.toLinked live).nodup
  mem_iff _ := w.mem_dispatchOrder_iff
  sorted front i back split j edge := by
    have sort := isOrder_dispatchOrder w.toLinked live
    simpa using sort.before front i back split j (w.readsFrom_iff.mp edge)

/-! ## the least one -/

/-- Where a list goes on with a node, no live node whose producers are all done or before it is less,
unless it is done or before it itself. -/
def Greedy (g : Graph) (live : Nat → Bool) (done order : List Nat) : Prop :=
  ∀ front i back, order = front ++ i :: back → ∀ k < g.size, live k = true →
    (∀ j ∈ g.producersOf k, j ∈ done ++ front) → k ∉ done ++ front → i ≤ k

/-- The first ready node may stand in front of a greedy list that takes it as done. -/
theorem Greedy.cons {s : Sorting} {rest : List Nat} (f : g.Frontier live done done s)
    (first : s.ready = i :: rest) (greedy : g.Greedy live (i :: done) order) :
    g.Greedy live done (i :: order) := by
  intro front m back split k inside alive producers fresh
  cases front with
  | nil =>
      -- the node could be ready too, and the ready nodes ascend
      obtain ⟨rfl, -⟩ := List.cons.inj split
      rw [List.append_nil] at producers fresh
      have ready : k ∈ i :: rest := by
        rw [← first]
        exact (f.mem_ready k).mpr ⟨inside, alive, fresh, waiting_eq_zero.mpr producers⟩
      have ascending := f.ascending
      rw [first] at ascending
      cases List.mem_cons.mp ready with
      | inl same => exact same.ge
      | inr later => exact ((List.pairwise_cons.mp ascending).1 k later).le
  | cons head front =>
      obtain ⟨rfl, split'⟩ := List.cons.inj split
      have moved : ∀ j, j ∈ done ++ i :: front ↔ j ∈ i :: done ++ front := by simp [or_left_comm]
      simp only [moved] at producers fresh
      exact greedy front m back split' k inside alive producers fresh

/-- The sort takes the least ready node at each step. -/
theorem greedy_dispatchOrder (w : g.Linked) (live : Nat → Bool) :
    g.Greedy live [] (g.dispatchOrder live) := by
  apply dispatchOrder_induction w live
  · intro done s _ _ front i back split
    simp at split
  · intro done s i rest order f first greedy
    exact greedy.cons f first

/-- A greedy order is not after any other, as long as numbers ascend with the places of nodes: the two
agree up to where the other goes on with a greater node. -/
theorem TopologicalOrder.lex_of_greedy (ascending : ∀ j < g.size, ∀ i < j, g.Precedes i j)
    (w : g.Linked) (mine : g.TopologicalOrder (g.Supported live) order)
    (greedy : g.Greedy live [] order) (theirs : g.TopologicalOrder (g.Supported live) other) :
    order = other ∨ List.Lex g.Precedes order other := by
  have beyond (rest rest' : List Nat) : ∀ front, order = front ++ rest → other = front ++ rest' →
      rest = rest' ∨ List.Lex g.Precedes rest rest' := by
    induction rest generalizing rest' with
    | nil =>
        intro front _ _
        cases rest' with
        | nil => exact .inl rfl
        | cons k rest' => exact .inr .nil
    | cons i rest ih =>
        intro front split split'
        have distinct := mine.nodup
        have distinct' := theirs.nodup
        rw [split] at distinct
        rw [split'] at distinct'
        cases rest' with
        | nil =>
            -- the other has all nodes of this one, so it does not end before
            have mem : i ∈ other := (theirs.mem_iff i).mpr ((mine.mem_iff i).mp (by simp [split]))
            rw [split', List.append_nil] at mem
            exact absurd rfl ((List.nodup_append.mp distinct).2.2 i mem i List.mem_cons_self)
        | cons k rest' =>
            by_cases same : i = k
            · subst same
              cases ih rest' (front ++ [i]) (by simp [split]) (by simp [split']) with
              | inl equal => exact .inl (congrArg _ equal)
              | inr less => exact .inr (.cons less)
            · have supported : g.Supported live k := (theirs.mem_iff k).mp (by simp [split'])
              have producers : ∀ j ∈ g.producersOf k, j ∈ [] ++ front := fun j producer =>
                theirs.sorted front k rest' split' j (w.readsFrom_iff.mpr producer)
              have fresh : k ∉ [] ++ front := fun mem =>
                (List.nodup_append.mp distinct').2.2 k mem k List.mem_cons_self rfl
              have le := greedy front i rest split k supported.1 (supported.2 k .refl) producers fresh
              exact .inr (.rel (ascending k supported.1 i (by omega)))
  exact beyond order other [] rfl rfl

/-- The dispatch order of a graph that was built, under one mark a node, is the lexicographically least
by the numbers of nodes among all topological orders of the nodes that are live together with
everything that they read from, directly or along others. -/
theorem order_least {nodes : List Node} {arguments : List (ValueId × PartitionId)} {g : Graph}
    (built : build nodes arguments = .ok g) {marks : List Bool}
    (mask : marks.length = g.size) :
    ∃ order, g.orderOf? marks = some order ∧
      g.TopologicalOrder (g.Supported fun i => marks.getD i false) order ∧
      ∀ other, g.TopologicalOrder (g.Supported fun i => marks.getD i false) other →
        order = other ∨ List.Lex g.Precedes order other := by
  have w := wired_of_build built
  have mine := w.topologicalOrder fun i => marks.getD i false
  have greedy := greedy_dispatchOrder w.toLinked fun i => marks.getD i false
  have ascending : ∀ j < g.size, ∀ i < j, g.Precedes i j := fun j inside i before =>
    number_lt_of_build built before inside
  refine ⟨g.dispatchOrder fun i => marks.getD i false, ?_, mine, fun other theirs => ?_⟩
  · simp [orderOf?, mask]
  · exact mine.lex_of_greedy ascending w.toLinked greedy theirs

/-! ## marks that are not closed -/

namespace Detour

/-- A node and one that reads from it, a node that is read twice by one before it, and one more. -/
def nodes : List Node :=
  [{ id := ⟨0⟩, op := .neg, inputs := [⟨0⟩], output := ⟨1⟩, partition := ⟨0⟩ },
    { id := ⟨2⟩, op := .identity, inputs := [⟨1⟩], output := ⟨2⟩, partition := ⟨0⟩ },
    { id := ⟨4⟩, op := .add, inputs := [⟨4⟩, ⟨4⟩], output := ⟨3⟩, partition := ⟨0⟩ },
    { id := ⟨6⟩, op := .neg, inputs := [⟨0⟩], output := ⟨4⟩, partition := ⟨0⟩ },
    { id := ⟨8⟩, op := .identity, inputs := [⟨0⟩], output := ⟨5⟩, partition := ⟨0⟩ }]

def graph : Graph := wire nodes [(⟨0⟩, ⟨0⟩)]

/-- All nodes but the first. -/
def marks : List Bool := [false, true, true, true, true]

/-- The node behind the dead one is left out, live as it is. The node that is read twice comes before its
reader, and this one before the last, which could have come first. -/
theorem order_least_detour :
    build nodes [(⟨0⟩, ⟨0⟩)] = .ok graph ∧ marks.length = graph.size ∧
      graph.orderOf? marks = some [3, 2, 4] ∧
      ∀ other, graph.TopologicalOrder (graph.Supported fun i => marks.getD i false) other →
        [3, 2, 4] = other ∨ List.Lex graph.Precedes [3, 2, 4] other := by
  have evaluated : fault? nodes [(⟨0⟩, ⟨0⟩)] = none ∧ marks.length = graph.size ∧
      graph.orderOf? marks = some [3, 2, 4] := by decide +kernel
  obtain ⟨sane, mask, found⟩ := evaluated
  have built : build nodes [(⟨0⟩, ⟨0⟩)] = .ok graph := build_eq_ok (by decide) sane
  obtain ⟨order, ordered, -, least⟩ := order_least built mask
  obtain rfl := Option.some.inj (found.symm.trans ordered)
  exact ⟨built, mask, found, least⟩

end Detour

end HomCircuit.Graph
