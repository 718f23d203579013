import HomCircuit.Proofs.Graph.Frontier

/-!
# HomCircuit.Proofs.Graph.Order

The dispatch order of a graph: every live node stands after the nodes that it reads from, and none
that could stand in it is left out.

* `Graph.IsOrder` — what makes a list of nodes a dispatch order;
* `Graph.dispatchOrder_induction` — what passes from the rest of an order to the whole holds of it;
* `Graph.isOrder_dispatchOrder` — the topological sort yields one;
* `Graph.Wired.induction` — a property that passes from producers to a node holds of all nodes;
* `Graph.mem_dispatchOrder` — the order of a set of nodes that is closed under producers has all
  of them.
-/

namespace HomCircuit.Graph

/-- A list of live nodes, each after those that it reads from, with none left out that could follow.
Nodes of `done` count as standing before the list. -/
structure IsOrder (g : Graph) (live : Nat → Bool) (done order : List Nat) : Prop where
  nodup : order.Nodup
  fresh : ∀ i ∈ order, i ∉ done
  alive : ∀ i ∈ order, i < g.size ∧ live i = true
  before : ∀ front i back, order = front ++ i :: back →
    ∀ j ∈ g.producersOf i, j ∈ done ∨ j ∈ front
  maximal : ∀ i < g.size, live i = true → (∀ j ∈ g.producersOf i, j ∈ done ∨ j ∈ order) →
    i ∈ done ∨ i ∈ order

variable {g : Graph} {live : Nat → Bool}

/-- Nothing is ready, so nothing could follow. -/
theorem isOrder_nil {done : List Nat} {s : Sorting} (f : g.Frontier live done done s)
    (stuck : s.ready = []) : g.IsOrder live done [] where
  nodup := List.nodup_nil
  fresh := by simp
  alive := by simp
  before := by simp
  maximal := by
    intro i inside alive producers
    by_contra fresh
    simp only [List.not_mem_nil, or_false] at fresh producers
    have : i ∈ s.ready := (f.mem_ready i).mpr ⟨inside, alive, fresh, waiting_eq_zero.mpr producers⟩
    simp [stuck] at this

/-- A ready node may stand in front of an order that takes it as done. -/
theorem IsOrder.cons {done order : List Nat} {i : Nat} (o : g.IsOrder live (i :: done) order)
    (inside : i < g.size) (alive : live i = true) (fresh : i ∉ done)
    (free : g.waiting done i = 0) : g.IsOrder live done (i :: order) where
  nodup := List.nodup_cons.mpr ⟨fun mem => o.fresh i mem List.mem_cons_self, o.nodup⟩
  fresh := List.forall_mem_cons.mpr
    ⟨fresh, fun j mem old => o.fresh j mem (List.mem_cons_of_mem _ old)⟩
  alive := List.forall_mem_cons.mpr ⟨⟨inside, alive⟩, o.alive⟩
  before := by
    intro front k back split j producer
    cases front with
    | nil =>
        obtain ⟨rfl, -⟩ := List.cons.inj split
        exact .inl (waiting_eq_zero.mp free j producer)
    | cons first front =>
        obtain ⟨rfl, split'⟩ := List.cons.inj split
        rcases o.before front k back split' j producer with old | new
        · rcases List.mem_cons.mp old with rfl | old
          · exact .inr List.mem_cons_self
          · exact .inl old
        · exact .inr (List.mem_cons_of_mem _ new)
  maximal := by
    intro k hk alive producers
    have shifted : ∀ j, j ∈ done ∨ j ∈ i :: order ↔ j ∈ i :: done ∨ j ∈ order := by
      intro j
      simp only [List.mem_cons]
      tauto
    rw [shifted]
    exact o.maximal k hk alive fun j mem => (shifted j).mp (producers j mem)

/-- What holds when nothing is ready, and of the sort from a first ready node on if it holds of what
follows that node, holds of the sort as long as there is fuel for the nodes that are left. -/
theorem sortFrom_induction (w : g.Linked) {motive : List Nat → List Nat → Prop}
    (stop : ∀ {done s}, g.Frontier live done done s → s.ready = [] → motive done [])
    (next : ∀ {done s i rest order}, g.Frontier live done done s → s.ready = i :: rest →
      motive (i :: done) order → motive done (i :: order))
    {done : List Nat} {s : Sorting} {fuel : Nat} (f : g.Frontier live done done s)
    (nodup : done.Nodup) (inside : ∀ i ∈ done, i < g.size)
    (free : ∀ i ∈ done, g.waiting done i = 0) (enough : g.size ≤ fuel + done.length) :
    motive done (sortFrom g live fuel s) := by
  induction fuel generalizing done s with
  | zero =>
      -- all nodes are done, so none of them can be ready
      apply stop f
      apply List.eq_nil_iff_forall_not_mem.mpr
      intro i mem
      obtain ⟨hi, -, fresh, -⟩ := (f.mem_ready i).mp mem
      have all : done.Perm (List.range g.size) :=
        (List.subperm_of_subset nodup fun j hj => List.mem_range.mpr (inside j hj)).perm_of_length_le
          (by simpa using enough)
      exact fresh (all.mem_iff.mpr (List.mem_range.mpr hi))
  | succ fuel ih =>
      cases first : s.ready with
      | nil =>
          simp only [sortFrom, first]
          exact stop f first
      | cons i rest =>
          obtain ⟨hi, -, fresh, zero⟩ := (f.mem_ready i).mp (by simp [first])
          have mono (j : Nat) (h : g.waiting done j = 0) : g.waiting (i :: done) j = 0 := by
            have := waiting_finish w fresh j
            omega
          have freeNext : ∀ j ∈ i :: done, g.waiting done j = 0 :=
            List.forall_mem_cons.mpr ⟨zero, free⟩
          have follows := (f.take first).finish w fresh freeNext
          simp only [sortFrom, first]
          apply next f first
          exact ih follows (List.nodup_cons.mpr ⟨fresh, nodup⟩)
            (List.forall_mem_cons.mpr ⟨hi, inside⟩) (fun j mem => mono j (freeNext j mem))
            (by simp only [List.length_cons]; omega)

/-- The same for the whole order. -/
theorem dispatchOrder_induction (w : g.Linked) (live : Nat → Bool)
    {motive : List Nat → List Nat → Prop}
    (stop : ∀ {done s}, g.Frontier live done done s → s.ready = [] → motive done [])
    (next : ∀ {done s i rest order}, g.Frontier live done done s → s.ready = i :: rest →
      motive (i :: done) order → motive done (i :: order)) :
    motive [] (g.dispatchOrder live) :=
  sortFrom_induction w stop next (Frontier.initial g live) List.nodup_nil (by simp) (by simp)
    (by simp)

/-- The topological sort yields a dispatch order. -/
theorem isOrder_dispatchOrder (w : g.Linked) (live : Nat → Bool) :
    g.IsOrder live [] (g.dispatchOrder live) := by
  apply dispatchOrder_induction w live isOrder_nil
  intro done s i rest order f first follows
  obtain ⟨inside, alive, fresh, free⟩ := (f.mem_ready i).mp (by simp [first])
  exact follows.cons inside alive fresh free

/-- Whatever passes from the producers of a node to the node holds of all nodes. -/
theorem Wired.induction (w : g.Wired) {motive : Nat → Prop}
    (step : ∀ i < g.size, (∀ j ∈ g.producersOf i, motive j) → motive i) :
    ∀ i < g.size, motive i := by
  have order := isOrder_dispatchOrder w.toLinked fun _ => true
  have all : (g.dispatchOrder fun _ => true).Perm (List.range g.size) :=
    (List.subperm_of_subset order.nodup fun j hj =>
      List.mem_range.mpr (order.alive j hj).1).perm_of_length_le (by simp [w.acyclic])
  have along : ∀ n, ∀ i ∈ (g.dispatchOrder fun _ => true).take n, motive i := by
    intro n
    induction n with
    | zero => simp
    | succ n ih =>
        intro i mem
        rw [List.take_add_one, List.mem_append] at mem
        rcases mem with old | last
        · exact ih i old
        · obtain ⟨inside, rfl⟩ := List.getElem?_eq_some_iff.mp (Option.mem_toList.mp last)
          have split := (List.take_append_drop n (g.dispatchOrder fun _ => true)).symm
          rw [List.drop_eq_getElem_cons inside] at split
          refine step _ (order.alive _ (List.getElem_mem inside)).1 fun j producer => ih j ?_
          simpa using order.before _ _ _ split j producer
  intro i inside
  refine along g.size i ?_
  rw [List.take_of_length_le (by rw [w.acyclic])]
  exact all.mem_iff.mpr (List.mem_range.mpr inside)

/-- A set of nodes that has the producers of each of its nodes has all of them in its order. -/
theorem mem_dispatchOrder (w : g.Wired)
    (closed : ∀ i < g.size, live i = true → ∀ j ∈ g.producersOf i, live j = true) {i : Nat} :
    i ∈ g.dispatchOrder live ↔ i < g.size ∧ live i = true := by
  have order := isOrder_dispatchOrder w.toLinked live
  refine ⟨order.alive i, fun ⟨inside, alive⟩ => ?_⟩
  revert alive
  refine w.induction (motive := fun i => live i = true → i ∈ g.dispatchOrder live) ?_ i inside
  intro k hk producers alive
  simpa using order.maximal k hk alive fun j mem => .inr (producers j mem (closed k hk alive j mem))

end HomCircuit.Graph
