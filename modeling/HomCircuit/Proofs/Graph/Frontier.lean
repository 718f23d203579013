import HomCircuit.Proofs.Graph.Wiring

/-!
# HomCircuit.Proofs.Graph.Frontier

The nodes that may start next, while others are done.

```
waiting done j   =   edges into j from nodes that are not done
j is ready      ↔   j is live, has not started, and waits for no edge
```

Both the topological sort and a call keep the same two things, pending counts and a list of ready
nodes, and change them in the same way when a node is done.

* `Graph.waiting` — what the pending counts stand for;
* `Graph.Frontier` — the invariant of pending counts and ready nodes, with `Frontier.initial`,
  `Frontier.take` and `Frontier.finish` for the three ways in which they change.
-/

namespace HomCircuit.Graph

/-- How many edges into a node come from nodes that are not done. -/
def waiting (g : Graph) (done : List Nat) (j : Nat) : Nat :=
  (g.producersOf j).countP fun i => decide (i ∉ done)

section Waiting

variable {g : Graph} {done : List Nat} {i j : Nat}

theorem waiting_nil (g : Graph) (j : Nat) : g.waiting [] j = g.dependencyCount j := by
  simp [waiting, dependencyCount]

theorem waiting_eq_zero : g.waiting done j = 0 ↔ ∀ i ∈ g.producersOf j, i ∈ done := by
  simp [waiting, List.countP_eq_zero]

/-- A node that becomes done resolves each of its edges. -/
theorem waiting_cons (fresh : i ∉ done) :
    g.waiting (i :: done) j + (g.producersOf j).count i = g.waiting done j := by
  unfold waiting
  induction g.producersOf j with
  | nil => rfl
  | cons k rest ih =>
      by_cases same : k = i
      · subst same
        simp only [List.countP_cons, List.count_cons_self, List.mem_cons, true_or, not_true_eq_false,
          decide_false, fresh, not_false_eq_true, decide_true, if_true]
        simp only [List.mem_cons] at ih
        simp only [Bool.false_eq_true, if_false]
        omega
      · simp only [List.countP_cons, List.count_cons, List.mem_cons, same, false_or, beq_iff_eq,
          if_false, Nat.add_zero]
        simp only [List.mem_cons] at ih
        omega

/-- A node that waits for nobody has not been waiting for a node that is not done. -/
theorem waiting_pos (mem : i ∈ g.producersOf j) (fresh : i ∉ done) : g.waiting done j ≠ 0 :=
  fun zero => fresh (waiting_eq_zero.mp zero i mem)

theorem mem_dependentsOf (w : g.Linked) : j ∈ g.dependentsOf i ↔ i ∈ g.producersOf j := by
  rw [← List.count_pos_iff, ← List.count_pos_iff, w.count_dependents]

theorem lt_size_of_mem_dependentsOf (w : g.Linked) (mem : j ∈ g.dependentsOf i) : j < g.size := by
  obtain ⟨slot, read, -⟩ := List.mem_filterMap.mp ((mem_dependentsOf w).mp mem)
  exact (w.inputs_lt j slot read).1

end Waiting

/-! ## ascending lists -/

theorem mem_insertAscending {i j : Nat} {l : List Nat} :
    j ∈ insertAscending i l ↔ j = i ∨ j ∈ l := by
  induction l with
  | nil => simp [insertAscending]
  | cons k rest ih =>
      simp only [insertAscending]
      split
      · simp
      · simp only [List.mem_cons, ih]
        tauto

theorem pairwise_insertAscending {i : Nat} {l : List Nat} (ascending : l.Pairwise (· < ·))
    (fresh : i ∉ l) : (insertAscending i l).Pairwise (· < ·) := by
  induction l with
  | nil => simp [insertAscending]
  | cons k rest ih =>
      obtain ⟨least, ascending⟩ := List.pairwise_cons.mp ascending
      simp only [List.mem_cons, not_or] at fresh
      simp only [insertAscending]
      split
      · rename_i le
        have lt : i < k := by omega
        refine List.pairwise_cons.mpr ⟨List.forall_mem_cons.mpr ⟨lt, fun m mem => ?_⟩,
          List.pairwise_cons.mpr ⟨least, ascending⟩⟩
        exact lt.trans (least m mem)
      · rename_i gt
        refine List.pairwise_cons.mpr ⟨fun m mem => ?_, ih ascending fresh.2⟩
        rcases mem_insertAscending.mp mem with rfl | old
        · omega
        · exact least m old

/-! ## resolving the edges of a node -/

section Resolve

variable {live : Nat → Bool}

theorem getD_setIfInBounds (a : Array Nat) (i j v : Nat) :
    (a.setIfInBounds i v).getD j 0 = if i = j ∧ i < a.size then v else a.getD j 0 := by
  by_cases same : i = j
  · subst same
    by_cases inside : i < a.size <;> simp [Array.getD_eq_getD_getElem?, inside]
  · simp [Array.getD_eq_getD_getElem?, same]

theorem size_foldl_resolveEdge (ds : List Nat) (s : Sorting) :
    (ds.foldl (resolveEdge live) s).pending.size = s.pending.size := by
  induction ds generalizing s with
  | nil => rfl
  | cons d rest ih =>
      rw [List.foldl_cons, ih]
      simp only [resolveEdge]
      split <;> simp

theorem pending_resolveEdge (s : Sorting) (d : Nat) :
    (resolveEdge live s d).pending = s.pending.setIfInBounds d (s.pending.getD d 0 - 1) := by
  simp only [resolveEdge]
  split <;> rfl

theorem ready_resolveEdge (s : Sorting) (d : Nat) :
    (resolveEdge live s d).ready =
      if s.pending.getD d 0 - 1 = 0 ∧ live d then insertAscending d s.ready else s.ready := by
  simp only [resolveEdge]
  split <;> rfl

/-- Every edge takes one off the count of its consumer. -/
theorem getD_foldl_resolveEdge (ds : List Nat) (s : Sorting) (j : Nat) :
    (ds.foldl (resolveEdge live) s).pending.getD j 0 = s.pending.getD j 0 - ds.count j := by
  induction ds generalizing s with
  | nil => rfl
  | cons d rest ih =>
      rw [List.foldl_cons, ih, pending_resolveEdge, List.count_cons, getD_setIfInBounds]
      by_cases same : d = j
      · subst same
        by_cases inside : d < s.pending.size
        · simp only [inside, and_self, if_true, beq_self_eq_true]
          omega
        · have zero : s.pending.getD d 0 = 0 := by simp [Array.getD, inside]
          simp [inside, zero]
      · simp [same]

/-- The nodes that become ready are the live ones whose last edge is resolved. -/
theorem mem_ready_foldl_resolveEdge (left : Nat → Nat) {ds : List Nat} {s : Sorting}
    (inside : ∀ d ∈ ds, d < s.pending.size)
    (counts : ∀ d ∈ ds, s.pending.getD d 0 = left d + ds.count d)
    (fresh : ∀ d ∈ ds, d ∉ s.ready) (ascending : s.ready.Pairwise (· < ·)) :
    (ds.foldl (resolveEdge live) s).ready.Pairwise (· < ·) ∧
      ∀ j, j ∈ (ds.foldl (resolveEdge live) s).ready ↔
        j ∈ s.ready ∨ (j ∈ ds ∧ live j = true ∧ left j = 0) := by
  induction ds generalizing s with
  | nil => simpa using ascending
  | cons d rest ih =>
      obtain ⟨insideHead, insideRest⟩ := List.forall_mem_cons.mp inside
      obtain ⟨freshHead, freshRest⟩ := List.forall_mem_cons.mp fresh
      have headCount := counts d (List.mem_cons_self)
      rw [List.count_cons_self] at headCount
      have becomes : s.pending.getD d 0 - 1 = 0 ↔ left d = 0 ∧ d ∉ rest := by
        rw [headCount, ← List.count_eq_zero]
        omega
      have nextReady : (resolveEdge live s d).ready =
          if (left d = 0 ∧ d ∉ rest) ∧ live d = true then insertAscending d s.ready
          else s.ready := by
        rw [ready_resolveEdge]
        simp only [becomes]
      have nextCounts : ∀ e ∈ rest,
          (resolveEdge live s d).pending.getD e 0 = left e + rest.count e := by
        intro e mem
        have old := counts e (List.mem_cons_of_mem _ mem)
        rw [pending_resolveEdge, getD_setIfInBounds]
        by_cases same : d = e
        · subst same
          rw [if_pos ⟨rfl, insideHead⟩]
          omega
        · rw [if_neg fun both => same both.1]
          simpa [List.count_cons, same] using old
      have nextInside : ∀ e ∈ rest, e < (resolveEdge live s d).pending.size := by
        simpa only [pending_resolveEdge, Array.size_setIfInBounds] using insideRest
      by_cases last : (left d = 0 ∧ d ∉ rest) ∧ live d = true
      · rw [if_pos last] at nextReady
        obtain ⟨sorted, members⟩ := ih nextInside nextCounts
          (by
            intro e mem old
            rw [nextReady, mem_insertAscending] at old
            rcases old with rfl | old
            · exact last.1.2 mem
            · exact freshRest e mem old)
          (by rw [nextReady]; exact pairwise_insertAscending ascending freshHead)
        refine ⟨sorted, fun j => ?_⟩
        rw [List.foldl_cons, members, nextReady, mem_insertAscending, List.mem_cons]
        constructor
        · rintro ((rfl | old) | new)
          · exact .inr ⟨.inl rfl, last.2, last.1.1⟩
          · exact .inl old
          · exact .inr ⟨.inr new.1, new.2⟩
        · rintro (old | ⟨rfl | new, ok⟩)
          · exact .inl (.inr old)
          · exact .inl (.inl rfl)
          · exact .inr ⟨new, ok⟩
      · rw [if_neg last] at nextReady
        obtain ⟨sorted, members⟩ := ih nextInside nextCounts (by rwa [nextReady]) (by rwa [nextReady])
        refine ⟨sorted, fun j => ?_⟩
        rw [List.foldl_cons, members, nextReady, List.mem_cons]
        constructor
        · rintro (old | new)
          · exact .inl old
          · exact .inr ⟨.inr new.1, new.2⟩
        · rintro (old | ⟨rfl | new, ok⟩)
          · exact .inl old
          · by_cases again : j ∈ rest
            · exact .inr ⟨again, ok⟩
            · exact absurd ⟨⟨ok.2, again⟩, ok.1⟩ last
          · exact .inr ⟨new, ok⟩

end Resolve

/-! ## the frontier -/

/-- Pending counts and ready nodes while some nodes have started and some of these are done. -/
structure Frontier (g : Graph) (live : Nat → Bool) (started done : List Nat) (s : Sorting) :
    Prop where
  size : s.pending.size = g.size
  counts : ∀ j < g.size, s.pending.getD j 0 = g.waiting done j
  mem_ready : ∀ j, j ∈ s.ready ↔
    j < g.size ∧ live j = true ∧ j ∉ started ∧ g.waiting done j = 0
  ascending : s.ready.Pairwise (· < ·)

/-- Counts before anything has started. -/
theorem getD_initial_pending (g : Graph) {j : Nat} (inside : j < g.size) :
    ((Array.range g.size).map g.dependencyCount).getD j 0 = g.waiting [] j := by
  simp [waiting_nil, Array.getD, inside]

theorem Frontier.initial (g : Graph) (live : Nat → Bool) :
    g.Frontier live [] []
      { pending := (Array.range g.size).map g.dependencyCount
        ready := (List.range g.size).filter fun i => live i && g.dependencyCount i == 0 } where
  size := by simp
  counts _ inside := getD_initial_pending g inside
  mem_ready j := by simp [waiting_nil]
  ascending := List.Pairwise.filter _ List.pairwise_lt_range

variable {g : Graph} {live : Nat → Bool} {started done : List Nat} {s : Sorting} {i : Nat}

/-- The first ready node starts. -/
theorem Frontier.take {rest : List Nat} (f : g.Frontier live started done s)
    (first : s.ready = i :: rest) :
    g.Frontier live (i :: started) done { s with ready := rest } where
  size := f.size
  counts := f.counts
  mem_ready j := by
    have members := f.mem_ready j
    have ascending := f.ascending
    rw [first] at members ascending
    have apart : i ∉ rest := fun mem =>
      lt_irrefl i ((List.pairwise_cons.mp ascending).1 i mem)
    by_cases same : j = i
    · subst same
      simp [apart]
    · simpa [same] using members
  ascending := by
    have ascending := f.ascending
    rw [first] at ascending
    exact (List.pairwise_cons.mp ascending).2

/-- The edges of a node into `j` are those that `j` no longer waits for once the node is done. -/
theorem waiting_finish (w : g.Linked) (fresh : i ∉ done) (j : Nat) :
    g.waiting (i :: done) j + (g.dependentsOf i).count j = g.waiting done j := by
  rw [w.count_dependents]
  exact waiting_cons fresh

/-- The counts are right again once the edges of a node are resolved. -/
theorem getD_pending_finish (w : g.Linked) (fresh : i ∉ done) {j : Nat}
    (counts : s.pending.getD j 0 = g.waiting done j) :
    ((g.dependentsOf i).foldl (resolveEdge live) s).pending.getD j 0 = g.waiting (i :: done) j := by
  have counted := waiting_finish w fresh j
  rw [getD_foldl_resolveEdge, counts]
  omega

/-- A node is done: its consumers wait for it no longer, and some of them become ready. -/
theorem Frontier.finish (w : g.Linked) (f : g.Frontier live started done s) (fresh : i ∉ done)
    (free : ∀ j ∈ started, g.waiting done j = 0) :
    g.Frontier live started (i :: done) ((g.dependentsOf i).foldl (resolveEdge live) s) := by
  have counted := waiting_finish w fresh
  have inside : ∀ d ∈ g.dependentsOf i, d < g.size := fun d mem => lt_size_of_mem_dependentsOf w mem
  have busy : ∀ d ∈ g.dependentsOf i, g.waiting done d ≠ 0 := fun d mem =>
    waiting_pos ((mem_dependentsOf w).mp mem) fresh
  obtain ⟨ascending, members⟩ := mem_ready_foldl_resolveEdge (g.waiting (i :: done))
    (fun d mem => by rw [f.size]; exact inside d mem)
    (fun d mem => by rw [f.counts d (inside d mem), counted])
    (fun d mem ready => busy d mem ((f.mem_ready d).mp ready).2.2.2)
    f.ascending
  refine ⟨by rw [size_foldl_resolveEdge, f.size], fun j hj => ?_, fun j => ?_, ascending⟩
  · exact getD_pending_finish w fresh (f.counts j hj)
  · rw [members, f.mem_ready]
    constructor
    · rintro (⟨hj, hlive, unstarted, zero⟩ | ⟨mem, hlive, zero⟩)
      · have := counted j
        exact ⟨hj, hlive, unstarted, by omega⟩
      · exact ⟨inside j mem, hlive, fun old => busy j mem (free j old), zero⟩
    · rintro ⟨hj, hlive, unstarted, zero⟩
      by_cases mem : j ∈ g.dependentsOf i
      · exact .inr ⟨mem, hlive, zero⟩
      · have := counted j
        rw [List.count_eq_zero.mpr mem] at this
        exact .inl ⟨hj, hlive, unstarted, by omega⟩

end HomCircuit.Graph
