import HomCircuit.Proofs.Graph.NodeOrder

/-!
# HomCircuit.Proofs.Graph.Worklist

The marks of live nodes as the end of a loop over a worklist, in whatever order it is worked off.

```
take an index      marked:      leave it
                   not marked:  mark it, and put its producers on the list, or those without a mark
work left          length of the list + edges into nodes without a mark
```

A node may stand on the list many times before it is marked, so the list grows while the loop runs.
Marking a node puts no more on the list than there are edges into it, and each edge only once, so what
is left of the work goes down with every turn.

* `Worklist.Turn` — one turn of the loop, with any index and with any of the marked producers;
* `Worklist.Turn.work_lt`, `Worklist.Follows.turn` — what a turn takes off the work, and what it keeps;
* `Worklist.Run.le`, `Worklist.Run.follows` — the same for a run;
* `Worklist.pop` — the loop that takes the last index and puts producers without a mark;
* `liveNodes_ancestors` — every run ends, with the marks of the requested nodes and their ancestors.
-/

namespace HomCircuit.Graph

/-! ## marks as a set -/

section Marks

variable {g : Graph} {live live' : List Bool} {slots : List Nat}

/-- Marks are told by the nodes that are marked. -/
theorem eq_of_marked (length : live.length = live'.length)
    (same : ∀ i < live.length, Marked live i ↔ Marked live' i) : live = live' := by
  refine List.ext_getElem length fun i inside inside' => ?_
  have marked := same i inside
  rw [Marked, Marked, List.getElem?_eq_getElem inside, List.getElem?_eq_getElem inside',
    Option.some_inj, Option.some_inj] at marked
  exact Bool.eq_iff_iff.mpr marked

/-- What contains the requested producers, and with a node its producers, contains the live nodes.
-/
theorem of_marked_liveNodes {P : Nat → Prop} (asked : ∀ i ∈ slots.filterMap g.producer?, P i)
    (closed : ∀ i, P i → ∀ j ∈ g.producersOf i, P j) :
    ∀ i, Marked (g.liveNodes slots) i → P i := by
  refine of_marked_markFrom closed (fun i old => ?_) asked
  simp [Marked, List.getElem?_replicate] at old

theorem lt_size_of_mem_asked {i : Nat} (mem : i ∈ slots.filterMap g.producer?) : i < g.size := by
  obtain ⟨slot, -, produced⟩ := List.mem_filterMap.mp mem
  exact (producer?_eq_some_iff.mp produced).1

theorem mem_asked_iff {i : Nat} (inside : i < g.size) :
    i ∈ slots.filterMap g.producer? ↔ g.outputSlot i ∈ slots := by
  rw [List.mem_filterMap]
  constructor
  · rintro ⟨slot, asked, produced⟩
    rwa [← (producer?_eq_some_iff.mp produced).2]
  · intro asked
    exact ⟨_, asked, producer?_outputSlot inside⟩

theorem marked_of_mem_asked {i : Nat} (mem : i ∈ slots.filterMap g.producer?) :
    Marked (g.liveNodes slots) i := by
  obtain ⟨slot, asked, produced⟩ := List.mem_filterMap.mp mem
  exact liveNodes_producer asked produced (lt_size_of_mem_asked mem)

/-- A live node produces a requested value, or an input of a live node. -/
theorem marked_liveNodes_iff {i : Nat} :
    Marked (g.liveNodes slots) i ↔
      i ∈ slots.filterMap g.producer? ∨ ∃ j, Marked (g.liveNodes slots) j ∧ i ∈ g.producersOf j := by
  have live {i : Nat} (reason : i ∈ slots.filterMap g.producer? ∨
      ∃ j, Marked (g.liveNodes slots) j ∧ i ∈ g.producersOf j) : Marked (g.liveNodes slots) i := by
    rcases reason with asked | ⟨j, marked, producer⟩
    · exact marked_of_mem_asked asked
    · exact liveNodes_closed marked producer
  refine ⟨?_, live⟩
  -- nodes with a reason are live, so their producers have one
  have contained : ∀ i, Marked (g.liveNodes slots) i → i ∈ slots.filterMap g.producer? ∨
      ∃ j, Marked (g.liveNodes slots) j ∧ i ∈ g.producersOf j :=
    of_marked_liveNodes (fun i asked => .inl asked) fun i reason j producer =>
      .inr ⟨i, live reason, producer⟩
  exact contained i

theorem lt_size_of_marked {i : Nat} (marked : Marked (g.liveNodes slots) i) : i < g.size := by
  rw [← length_liveNodes g slots]
  exact (List.getElem?_eq_some_iff.mp marked).1

/-- More slots have more live nodes. -/
theorem marked_liveNodes_mono {slots' : List Nat} (more : ∀ slot ∈ slots, slot ∈ slots') :
    ∀ i, Marked (g.liveNodes slots) i → Marked (g.liveNodes slots') i := by
  refine of_marked_liveNodes (fun i mem => ?_) fun j live i edge => liveNodes_closed live edge
  obtain ⟨slot, asked, produced⟩ := List.mem_filterMap.mp mem
  exact marked_of_mem_asked (List.mem_filterMap.mpr ⟨slot, more slot asked, produced⟩)

/-- It does not count in which order slots are requested, nor how often. -/
theorem liveNodes_congr {slots' : List Nat} (same : ∀ slot, slot ∈ slots' ↔ slot ∈ slots) :
    g.liveNodes slots' = g.liveNodes slots := by
  refine eq_of_marked (by rw [length_liveNodes, length_liveNodes]) fun i _ => ⟨?_, ?_⟩
  · exact marked_liveNodes_mono (fun slot => (same slot).mp) i
  · exact marked_liveNodes_mono (fun slot => (same slot).mpr) i

end Marks

/-! ## the loop -/

/-- Marks, and the indices that are still to be taken. -/
structure Worklist where
  live : List Bool
  stack : List Nat
  deriving DecidableEq

namespace Worklist

/-- No mark, and the producers of requested values. -/
def start (g : Graph) (slots : List Nat) : Worklist :=
  ⟨List.replicate g.size false, slots.filterMap g.producer?⟩

/-- An index is taken from some place. If it has a mark it is left; else it is marked, and some of
its producers take its place, with all of those that have no mark. -/
inductive Turn (g : Graph) : Worklist → Worklist → Prop
  | leave {live front i back} (marked : Marked live i) :
      Turn g ⟨live, front ++ i :: back⟩ ⟨live, front ++ back⟩
  | mark {live front i back pushed} (fresh : live[i]? = some false)
      (edges : pushed.Sublist (g.producersOf i))
      (all : ∀ j ∈ g.producersOf i, Marked (live.set i true) j ∨ j ∈ pushed) :
      Turn g ⟨live, front ++ i :: back⟩ ⟨live.set i true, front ++ pushed ++ back⟩

/-- So many turns, one after the other. -/
inductive Run (g : Graph) (w : Worklist) : Nat → Worklist → Prop
  | refl : Run g w 0 w
  | next {n v v'} (before : Run g w n v) (turn : Turn g v v') : Run g w (n + 1) v'

/-- The turn that takes the last index and puts the producers without a mark in its place. -/
def pop (g : Graph) (w : Worklist) : Worklist :=
  match w.stack.getLast? with
  | none => w
  | some i =>
    if w.live[i]? = some false then
      let live := w.live.set i true
      ⟨live, w.stack.dropLast ++ (g.producersOf i).filter fun j => live[j]? = some false⟩
    else ⟨w.live, w.stack.dropLast⟩

/-- What is left to do: the indices on the list, and the edges into nodes without a mark. -/
def work (g : Graph) (w : Worklist) : Nat :=
  w.stack.length +
    ∑ i ∈ (Finset.range g.size).filter fun i => w.live[i]? = some false, g.dependencyCount i

/-- The indices on the list can be taken. Requested nodes and the producers of marked ones are
marked or wait on the list, and nothing but live nodes is or does. -/
structure Follows (g : Graph) (slots : List Nat) (w : Worklist) : Prop where
  size : w.live.length = g.size
  asked : ∀ i ∈ slots.filterMap g.producer?, Marked w.live i ∨ i ∈ w.stack
  closed : ∀ i, Marked w.live i → ∀ j ∈ g.producersOf i, Marked w.live j ∨ j ∈ w.stack
  marked : ∀ i, Marked w.live i → Marked (g.liveNodes slots) i
  waiting : ∀ i ∈ w.stack, i < g.size ∧ Marked (g.liveNodes slots) i

variable {g : Graph} {slots : List Nat} {w w' : Worklist}

/-! ### one turn -/

/-- The edges into nodes without a mark are fewer by those into a node that is marked. -/
theorem sum_set_add (live : List Bool) {i : Nat} (size : live.length = g.size)
    (fresh : live[i]? = some false) :
    (∑ j ∈ (Finset.range g.size).filter fun j => (live.set i true)[j]? = some false,
        g.dependencyCount j) + g.dependencyCount i =
      ∑ j ∈ (Finset.range g.size).filter fun j => live[j]? = some false, g.dependencyCount j := by
  have inside : i < live.length := (List.getElem?_eq_some_iff.mp fresh).1
  have erased : ((Finset.range g.size).filter fun j => (live.set i true)[j]? = some false) =
      ((Finset.range g.size).filter fun j => live[j]? = some false).erase i := by
    ext j
    rw [Finset.mem_erase, Finset.mem_filter, Finset.mem_filter, List.getElem?_set]
    by_cases same : i = j
    · simp [same]
    · simp [same, Ne.symm same]
  rw [erased]
  exact Finset.sum_erase_add _ _ (Finset.mem_filter.mpr ⟨Finset.mem_range.mpr (size ▸ inside), fresh⟩)

/-- Every turn takes something off the work. -/
theorem Turn.work_lt (turn : Turn g w w') (size : w.live.length = g.size) :
    w'.work g < w.work g := by
  cases turn with
  | leave marked =>
      simp only [work, List.length_append, List.length_cons]
      omega
  | @mark live front i back pushed fresh edges all =>
      have sum := sum_set_add live size fresh
      have few : pushed.length ≤ g.dependencyCount i := edges.length_le
      simp only [work, List.length_append, List.length_cons]
      omega

theorem follows_start (g : Graph) (slots : List Nat) : Follows g slots (start g slots) where
  size := by simp [start]
  asked i mem := .inr mem
  closed i old := by simp [start, Marked, List.getElem?_replicate] at old
  marked i old := by simp [start, Marked, List.getElem?_replicate] at old
  waiting i mem := ⟨lt_size_of_mem_asked mem, marked_of_mem_asked mem⟩

/-- A turn loses nothing that is to be marked, and adds nothing else. -/
theorem Follows.turn (h : Follows g slots w) (turn : Turn g w w') : Follows g slots w' := by
  cases turn with
  | @leave live front i back marked =>
      -- what waited at the place of the index waits elsewhere, or is the index, which is marked
      have kept {j : Nat} (old : Marked live j ∨ j ∈ front ++ i :: back) :
          Marked live j ∨ j ∈ front ++ back := by
        simp only [List.mem_append, List.mem_cons] at old ⊢
        rcases old with known | front | rfl | back
        · exact .inl known
        · exact .inr (.inl front)
        · exact .inl marked
        · exact .inr (.inr back)
      exact
        { size := h.size
          asked := fun j mem => kept (h.asked j mem)
          closed := fun j known k edge => kept (h.closed j known k edge)
          marked := h.marked
          waiting := fun j mem => h.waiting j (by
            simp only [List.mem_append, List.mem_cons] at mem ⊢
            tauto) }
  | @mark live front i back pushed fresh edges all =>
      have inside : i < live.length := (List.getElem?_eq_some_iff.mp fresh).1
      have taken := h.waiting i (by simp)
      have kept {j : Nat} (old : Marked live j ∨ j ∈ front ++ i :: back) :
          Marked (live.set i true) j ∨ j ∈ front ++ pushed ++ back := by
        simp only [List.mem_append, List.mem_cons, marked_set] at old ⊢
        rcases old with known | front | rfl | back
        · exact .inl (.inr known)
        · exact .inr (.inl (.inl front))
        · exact .inl (.inl ⟨rfl, inside⟩)
        · exact .inr (.inr back)
      exact
        { size := by rw [List.length_set, h.size]
          asked := fun j mem => kept (h.asked j mem)
          closed := fun j known k edge => by
            rcases marked_set.mp known with ⟨rfl, -⟩ | known
            · refine (all k edge).imp_right fun mem => ?_
              simp [mem]
            · exact kept (h.closed j known k edge)
          marked := fun j known => by
            rcases marked_set.mp known with ⟨rfl, -⟩ | known
            · exact taken.2
            · exact h.marked j known
          waiting := fun j mem => by
            simp only [List.mem_append] at mem
            rcases mem with (front | new) | back
            · exact h.waiting j (by simp [front])
            · have producer := edges.subset new
              exact ⟨lt_size_of_mem_producersOf producer, liveNodes_closed taken.2 producer⟩
            · exact h.waiting j (by simp [back]) }

/-- Where something is left on the list, the loop that takes the last index makes a turn. -/
theorem Follows.turn_pop (h : Follows g slots w) (left : w.stack ≠ []) : Turn g w (w.pop g) := by
  obtain ⟨live, stack⟩ := w
  obtain ⟨front, i, rfl⟩ := List.eq_nil_or_concat stack |>.resolve_left left
  have inside : i < live.length := by
    rw [h.size]
    exact (h.waiting i (by simp)).1
  by_cases fresh : live[i]? = some false
  · have turn : Turn g ⟨live, front ++ i :: []⟩ ⟨live.set i true, _⟩ :=
      .mark fresh (List.filter_sublist (p := fun j => (live.set i true)[j]? = some false)) ?_
    · simpa [pop, fresh] using turn
    · intro j edge
      have size : j < (live.set i true).length := by
        rw [List.length_set, h.size]
        exact lt_size_of_mem_producersOf edge
      simp only [Marked, List.mem_filter, edge, true_and, decide_eq_true_eq]
      rw [List.getElem?_eq_getElem size]
      cases (live.set i true)[j] <;> simp
  · have marked : Marked live i := by
      rw [List.getElem?_eq_getElem inside] at fresh
      rw [Marked, List.getElem?_eq_getElem inside]
      simpa using fresh
    have turn : Turn g ⟨live, front ++ i :: []⟩ ⟨live, _⟩ := .leave marked
    simpa [pop, fresh] using turn

/-- When the list is empty, the marks are those of the live nodes. -/
theorem Follows.live_eq (h : Follows g slots w) (done : w.stack = []) :
    w.live = g.liveNodes slots := by
  have known {i : Nat} (known : Marked w.live i ∨ i ∈ w.stack) : Marked w.live i := by
    simpa [done] using known
  refine eq_of_marked (by rw [h.size, length_liveNodes]) fun i _ => ⟨h.marked i, ?_⟩
  exact of_marked_liveNodes (fun i asked => known (h.asked i asked))
    (fun i marked j edge => known (h.closed i marked j edge)) i

/-! ### runs -/

theorem Run.follows {n : Nat} (run : Run g w n w') (h : Follows g slots w) :
    Follows g slots w' := by
  induction run with
  | refl => exact h
  | next before turn ih => exact ih.turn turn

/-- Runs are no longer than there is work. -/
theorem Run.le {n : Nat} (run : Run g w n w') (h : Follows g slots w) :
    n + w'.work g ≤ w.work g := by
  induction run with
  | refl => omega
  | next before turn ih =>
      have less := turn.work_lt (before.follows h).size
      omega

/-- At the start the work is what is requested and all edges. -/
theorem work_start_le (g : Graph) (slots : List Nat) :
    (start g slots).work g ≤ slots.length + ∑ i ∈ Finset.range g.size, g.dependencyCount i := by
  refine Nat.add_le_add (List.length_filterMap_le _ _) ?_
  exact Finset.sum_le_sum_of_subset (Finset.filter_subset _ _)

/-- The loop that takes the last index either has made so many turns, or is at its end before. -/
theorem exists_run_pop (g : Graph) (slots : List Nat) (n : Nat) :
    ∃ m ≤ n, Run g (start g slots) m ((pop g)^[n] (start g slots)) ∧
      (m = n ∨ ((pop g)^[n] (start g slots)).stack = []) := by
  induction n with
  | zero => exact ⟨0, le_rfl, .refl, .inl rfl⟩
  | succ n ih =>
      obtain ⟨m, le, run, state⟩ := ih
      rw [Function.iterate_succ_apply']
      generalize (pop g)^[n] (start g slots) = v at run state
      by_cases done : v.stack = []
      · have stays : v.pop g = v := by simp [pop, done]
        rw [stays]
        exact ⟨m, by omega, run, .inr done⟩
      · obtain rfl := state.resolve_right done
        have turn := (run.follows (follows_start g slots)).turn_pop done
        exact ⟨m + 1, le_rfl, .next run turn, .inl rfl⟩

/-- After as many turns as there is work, the loop that takes the last index is at its end. -/
theorem iterate_pop_eq {n : Nat} (enough : (start g slots).work g ≤ n) :
    (pop g)^[n] (start g slots) = ⟨g.liveNodes slots, []⟩ := by
  obtain ⟨m, le, run, state⟩ := exists_run_pop g slots n
  generalize (pop g)^[n] (start g slots) = v at run state
  have start := follows_start g slots
  have done : v.stack = [] := by
    rcases state with rfl | done
    · have bound := run.le start
      have none : v.stack.length ≤ v.work g := Nat.le_add_right _ _
      exact List.length_eq_zero_iff.mp (by omega)
    · exact done
  have live := (run.follows start).live_eq done
  obtain ⟨marks, stack⟩ := v
  simp_all

end Worklist

/-! ## live nodes -/

/-- In a graph that was built, and for slots that exist, every run of the worklist ends: it has no
more turns than there are requested slots and edges, it can go on while an index is left, and when
none is left the marks are those of the live nodes, in whatever order it took them; the loop that
takes the last index ends so too. A node is live exactly if its output is requested or is an input
of a live node, and the live nodes are among any nodes that have those requested and, with a node,
those that it reads from. Which slots are requested is all that counts, not their order or how often
they are. -/
theorem liveNodes_ancestors {nodes : List Node} {arguments : List (ValueId × PartitionId)} {g : Graph}
    (built : build nodes arguments = .ok g) {slots : List Nat}
    (known : ∀ slot ∈ slots, slot < g.slotCount) :
    let bound := slots.length + ∑ i ∈ Finset.range g.size, g.dependencyCount i
    (∀ n w, Worklist.Run g (.start g slots) n w →
      n ≤ bound ∧ (w.stack ≠ [] → Worklist.Turn g w (w.pop g)) ∧
        (w.stack = [] → w.live = g.liveNodes slots)) ∧
    (∀ n, bound ≤ n → (Worklist.pop g)^[n] (.start g slots) = ⟨g.liveNodes slots, []⟩) ∧
    g.liveNodes? slots = some (g.liveNodes slots) ∧ (g.liveNodes slots).length = g.size ∧
    (∀ i < g.size, Marked (g.liveNodes slots) i ↔
      g.outputSlot i ∈ slots ∨
        ∃ j < g.size, Marked (g.liveNodes slots) j ∧ (g.node i).output ∈ (g.node j).inputs) ∧
    (∀ P : Nat → Prop, (∀ i < g.size, g.outputSlot i ∈ slots → P i) →
      (∀ j < g.size, P j → ∀ i < g.size, (g.node i).output ∈ (g.node j).inputs → P i) →
      ∀ i, Marked (g.liveNodes slots) i → P i) ∧
    ∀ slots', (∀ slot, slot ∈ slots' ↔ slot ∈ slots) → g.liveNodes slots' = g.liveNodes slots := by
  intro bound
  have w := (wired_of_build built).toLinked
  have start := Worklist.follows_start g slots
  have enough := Worklist.work_start_le g slots
  refine ⟨fun n v run => ?runs, fun n le => Worklist.iterate_pop_eq (enough.trans le),
    if_pos (by simpa using known), length_liveNodes g slots, fun i inside => ?reasons,
    fun P asked closed => ?least, fun slots' same => liveNodes_congr same⟩
  case runs =>
    have follows := run.follows start
    have le := run.le start
    exact ⟨by omega, follows.turn_pop, follows.live_eq⟩
  case reasons =>
    rw [marked_liveNodes_iff, mem_asked_iff inside]
    refine or_congr_right (exists_congr fun j => ?_)
    constructor
    · rintro ⟨marked, edge⟩
      have inside' := lt_size_of_marked marked
      exact ⟨inside', marked, (w.mem_producersOf_iff inside' inside).mp edge⟩
    · rintro ⟨inside', marked, edge⟩
      exact ⟨marked, (w.mem_producersOf_iff inside' inside).mpr edge⟩
  case least =>
    have contained : ∀ i, Marked (g.liveNodes slots) i → i < g.size ∧ P i := by
      refine of_marked_liveNodes (fun i mem => ?_) fun j reached i edge => ?_
      · have inside := lt_size_of_mem_asked mem
        exact ⟨inside, asked i inside ((mem_asked_iff inside).mp mem)⟩
      · have inside := lt_size_of_mem_producersOf edge
        exact ⟨inside, closed j reached.1 reached.2 i inside
          ((w.mem_producersOf_iff reached.1 inside).mp edge)⟩
    exact fun i marked => (contained i marked).2

namespace Detour

/-- An output that is requested twice, one more, and an argument. The node that is read twice is put
on the list twice. -/
theorem liveNodes_ancestors_twice :
    build nodes [(⟨0⟩, ⟨0⟩)] = .ok graph ∧ (∀ slot ∈ [3, 3, 0, 5], slot < graph.slotCount) ∧
      graph.liveNodes? [3, 3, 0, 5] = some [false, false, true, true, true] := by
  have built : build nodes [(⟨0⟩, ⟨0⟩)] = .ok graph := build_eq_ok (by decide) (by decide +kernel)
  have known : ∀ slot ∈ [3, 3, 0, 5], slot < graph.slotCount := by decide
  obtain ⟨-, ends, found, -⟩ := liveNodes_ancestors built known
  have evaluated : (Worklist.pop graph)^[8] (.start graph [3, 3, 0, 5]) =
      ⟨[false, false, true, true, true], []⟩ := by decide +kernel
  have marks := congrArg Worklist.live ((ends 8 (by decide +kernel)).symm.trans evaluated)
  exact ⟨built, known, found.trans (congrArg some marks)⟩

end Detour

end HomCircuit.Graph
