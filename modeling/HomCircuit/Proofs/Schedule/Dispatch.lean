import HomCircuit.Schedule.Dispatch
import HomCircuit.Proofs.Schedule.Plan

/-!
# HomCircuit.Proofs.Schedule.Dispatch

Where a call stands: the nodes that are done, those that workers have in hand, and those that were
lost to a failure.

```
started  =  done + lost + in hand        remaining  =  live nodes - done
```

* `Dispatch.Standing` — the invariant, with one lemma for each way in which a dispatch changes:
  `initial`, `start`, `succeed`, `discard`, `fail`;
* `Dispatch.next_cases` — all that a worker may be told;
* `Dispatch.Standing.next_start` — while nodes are left and none is in hand, one may start.
-/

namespace HomCircuit.Dispatch

/-! ## what a worker is told -/

/-- A worker is told to stop once the call has failed or nothing is left, to start a candidate, or
to wait when there is none. -/
theorem next_cases (p : Plan) (d : Dispatch) (cancelled : Bool) :
    (d.next p cancelled = (.stop, d.notice cancelled) ∧
        ((d.notice cancelled).failure ≠ none ∨ d.remaining = 0)) ∨
      (d.failure = none ∧ d.remaining ≠ 0 ∧
        ((∃ i d', d.candidate? p = some (i, d') ∧
            d.next p cancelled =
              (.start i, { d' with started := i :: d'.started, running := d'.running + 1 })) ∨
          (d.candidate? p = none ∧ d.next p cancelled = (.wait, d)))) := by
  have remaining : (d.notice cancelled).remaining = d.remaining := by
    unfold notice
    split <;> rfl
  by_cases stop : (d.notice cancelled).failure.isSome || (d.notice cancelled).remaining == 0
  · left
    refine ⟨by simp only [next, stop, if_true], ?_⟩
    rw [Bool.or_eq_true, remaining, beq_iff_eq] at stop
    rcases stop with failed | none
    · exact .inl (Option.isSome_iff_ne_none.mp failed)
    · exact .inr none
  · right
    have stop' := stop
    simp only [Bool.or_eq_true, beq_iff_eq, not_or, Bool.not_eq_true, Option.isSome_eq_false_iff,
      Option.isNone_iff_eq_none, remaining] at stop
    obtain ⟨healthy, more⟩ := stop
    have same : d.notice cancelled = d := by
      unfold notice at healthy ⊢
      split at healthy
      · simp at healthy
      · rename_i quiet
        rw [if_neg quiet]
    rw [same] at healthy
    refine ⟨healthy, more, ?_⟩
    rw [same] at stop'
    simp only [next, same]
    rw [if_neg stop']
    cases d.candidate? p with
    | none => exact .inr ⟨rfl, rfl⟩
    | some c => exact .inl ⟨c.1, c.2, rfl, rfl⟩

/-! ## the standing of a call -/

/-- The nodes of a call: those that are done, in hand, and lost. -/
structure Standing (p : Plan) (d : Dispatch) (hands done lost : List Nat) : Prop where
  nodup : d.started.Nodup
  alive : ∀ i ∈ d.started, p.isLive i = true
  split : d.started.Perm (done ++ lost ++ hands)
  /-- What has started waits for nothing. -/
  free : ∀ i ∈ d.started, p.graph.waiting done i = 0
  lost_nil : d.failure = none → lost = []
  counts : ∀ j < p.graph.size, d.pending.getD j 0 = p.graph.waiting done j
  ready : p.options.deterministic = false →
    p.graph.Frontier p.isLive d.started done ⟨d.pending, d.ready⟩
  cursor : p.options.deterministic = true → d.started.reverse = p.order.take d.cursor
  remaining : d.remaining + done.length = p.liveIndices.length

variable {p : Plan} {d : Dispatch} {hands done lost : List Nat} {i : Nat}

theorem Standing.initial (p : Plan) : (Dispatch.initial p).Standing p [] [] [] where
  nodup := List.nodup_nil
  alive := by simp [Dispatch.initial]
  split := .refl _
  free := by simp [Dispatch.initial]
  lost_nil _ := rfl
  counts _ inside := Graph.getD_initial_pending p.graph inside
  ready _ := by
    have sorting := Graph.Frontier.initial p.graph p.isLive
    have same : (Dispatch.initial p).ready =
        (List.range p.graph.size).filter fun i => p.isLive i && p.graph.dependencyCount i == 0 := by
      simp [Dispatch.initial, Plan.liveIndices, List.filter_filter, Bool.and_comm]
    rw [same]
    exact sorting
  cursor _ := by simp [Dispatch.initial]
  remaining := by simp [Dispatch.initial]

/-- Nodes in hand are not done. -/
theorem Standing.not_done (st : d.Standing p hands done lost) (held : i ∈ hands) : i ∉ done := by
  have nodup := st.split.nodup_iff.mp st.nodup
  intro mem
  exact (List.nodup_append'.mp nodup).2.2 (List.mem_append_left _ mem) held

theorem Standing.started_of_hands (st : d.Standing p hands done lost) (held : i ∈ hands) :
    i ∈ d.started := st.split.mem_iff.mpr (List.mem_append_right _ held)

theorem Standing.started_of_done (st : d.Standing p hands done lost) (mem : i ∈ done) :
    i ∈ d.started :=
  st.split.mem_iff.mpr (List.mem_append_left _ (List.mem_append_left _ mem))

/-- It does not matter in which order nodes are held. -/
theorem Standing.perm {others : List Nat} (st : d.Standing p hands done lost)
    (same : hands.Perm others) : d.Standing p others done lost :=
  { st with split := st.split.trans (same.append_left _) }

/-- A cancellation that is noticed changes nothing but the failure. -/
theorem Standing.notice (st : d.Standing p hands done lost) (cancelled : Bool) :
    (d.notice cancelled).Standing p hands done lost := by
  unfold Dispatch.notice
  split
  · exact { st with lost_nil := by simp }
  · exact st

/-- The candidate of a fixed order, and the first of the ready nodes. -/
theorem candidate?_cases {d' : Dispatch} (h : d.candidate? p = some (i, d')) :
    (p.options.deterministic = true ∧ p.order[d.cursor]? = some i ∧ d.pending.getD i 0 = 0 ∧
        d' = { d with cursor := d.cursor + 1 }) ∨
      (p.options.deterministic = false ∧ ∃ rest, d.ready = i :: rest ∧
        d' = { d with ready := rest }) := by
  unfold candidate? at h
  by_cases fixed : p.options.deterministic = true
  · rw [if_pos fixed] at h
    left
    cases found : p.order[d.cursor]? with
    | none => simp [found] at h
    | some j =>
        simp only [found] at h
        split at h
        · rename_i zero
          simp only [Option.some.injEq, Prod.mk.injEq] at h
          obtain ⟨rfl, rfl⟩ := h
          exact ⟨fixed, rfl, zero, rfl⟩
        · contradiction
  · rw [if_neg fixed] at h
    right
    cases first : d.ready with
    | nil => simp [first] at h
    | cons j rest =>
        simp only [first, Option.some.injEq, Prod.mk.injEq] at h
        obtain ⟨rfl, rfl⟩ := h
        exact ⟨by simpa using fixed, rest, rfl, rfl⟩

/-- A candidate is live, has not started, and waits for nothing. -/
theorem Standing.candidate (sound : p.Sound) (st : d.Standing p hands done lost) {d' : Dispatch}
    (h : d.candidate? p = some (i, d')) :
    p.isLive i = true ∧ i ∉ d.started ∧ p.graph.waiting done i = 0 := by
  rcases candidate?_cases h with ⟨fixed, found, zero, -⟩ | ⟨free, rest, first, -⟩
  · have order := Graph.isOrder_dispatchOrder sound.wired.toLinked p.isLive
    rw [← sound.order fixed] at order
    obtain ⟨inside, rfl⟩ := List.getElem?_eq_some_iff.mp found
    have mem := List.getElem_mem inside
    refine ⟨(order.alive _ mem).2, fun old => ?_, ?_⟩
    · have early := List.mem_reverse.mpr old
      rw [st.cursor fixed] at early
      have apart := List.nodup_append'.mp
        ((List.take_append_drop d.cursor p.order).symm ▸ order.nodup)
      refine apart.2.2 early ?_
      rw [List.drop_eq_getElem_cons inside]
      exact List.mem_cons_self
    · rw [← st.counts _ (order.alive _ mem).1]
      exact zero
  · have ready := (st.ready free).mem_ready i
    have mem : i ∈ d.ready := by simp [first]
    exact ⟨(ready.mp mem).2.1, (ready.mp mem).2.2⟩

/-- A candidate starts: it is in hand from now on. -/
theorem Standing.start (sound : p.Sound) (st : d.Standing p hands done lost) {d' : Dispatch}
    (h : d.candidate? p = some (i, d')) :
    Standing p { d' with started := i :: d'.started, running := d'.running + 1 } (i :: hands) done
      lost ∧ d'.started = d.started ∧ d'.failure = d.failure := by
  obtain ⟨alive, fresh, zero⟩ := st.candidate sound h
  have split : (i :: d.started).Perm (done ++ lost ++ i :: hands) :=
    (st.split.cons i).trans List.perm_middle.symm
  rcases candidate?_cases h with ⟨fixed, found, -, rfl⟩ | ⟨free, rest, first, rfl⟩
  · refine ⟨?_, rfl, rfl⟩
    exact
      { nodup := List.nodup_cons.mpr ⟨fresh, st.nodup⟩
        alive := List.forall_mem_cons.mpr ⟨alive, st.alive⟩
        split := split
        free := List.forall_mem_cons.mpr ⟨zero, st.free⟩
        lost_nil := st.lost_nil
        counts := st.counts
        ready := fun free => absurd fixed (by simp [free])
        cursor := by
          intro _
          obtain ⟨inside, rfl⟩ := List.getElem?_eq_some_iff.mp found
          rw [List.reverse_cons, st.cursor fixed, List.take_add_one, List.getElem?_eq_getElem inside]
          rfl
        remaining := st.remaining }
  · refine ⟨?_, rfl, rfl⟩
    exact
      { nodup := List.nodup_cons.mpr ⟨fresh, st.nodup⟩
        alive := List.forall_mem_cons.mpr ⟨alive, st.alive⟩
        split := split
        free := List.forall_mem_cons.mpr ⟨zero, st.free⟩
        lost_nil := st.lost_nil
        counts := st.counts
        ready := fun _ => (st.ready free).take first
        cursor := fun fixed => absurd fixed (by simp [free])
        remaining := st.remaining }

/-! ## a node ends -/

/-- Resolving the edges of a node goes along with the sort of the graph. -/
theorem foldl_resolve (p : Plan) (ds : List Nat) (d : Dispatch) :
    ds.foldl (resolve p) d =
      let s := ds.foldl
        (Graph.resolveEdge fun j => p.isLive j && !p.options.deterministic) ⟨d.pending, d.ready⟩
      { d with pending := s.pending, ready := s.ready } := by
  induction ds generalizing d with
  | nil => rfl
  | cons dependent rest ih =>
      have step : resolve p d dependent =
          let s := Graph.resolveEdge (fun j => p.isLive j && !p.options.deterministic)
            ⟨d.pending, d.ready⟩ dependent
          { d with pending := s.pending, ready := s.ready } := by
        simp only [resolve, Graph.pending_resolveEdge, Graph.ready_resolveEdge, Bool.and_eq_true,
          Bool.not_eq_true', Bool.not_eq_true]
      rw [List.foldl_cons, step, ih, List.foldl_cons]

/-- A node that a worker has in hand succeeds. -/
theorem Standing.succeed (sound : p.Sound) (st : d.Standing p (i :: hands) done lost) :
    (d.succeed p i).Standing p hands (i :: done) lost := by
  have fresh : i ∉ done := st.not_done List.mem_cons_self
  have alive := st.alive i (st.started_of_hands List.mem_cons_self)
  have mono (j : Nat) (zero : p.graph.waiting done j = 0) :
      p.graph.waiting (i :: done) j = 0 := by
    have := Graph.waiting_finish sound.wired.toLinked fresh j
    omega
  have room : done.length < p.liveIndices.length := by
    have nodup := st.split.nodup_iff.mp st.nodup
    rw [List.append_assoc] at nodup
    have sub : (i :: done).Subperm p.liveIndices := by
      refine List.subperm_of_subset (List.nodup_cons.mpr ⟨fresh, (List.nodup_append'.mp nodup).1⟩)
        fun j mem => ?_
      have alive' : p.isLive j = true := by
        rcases List.mem_cons.mp mem with rfl | old
        · exact alive
        · exact st.alive j (st.started_of_done old)
      exact Plan.mem_liveIndices.mpr ⟨sound.live_lt j alive', alive'⟩
    simpa using sub.length_le
  have remaining := st.remaining
  rw [Dispatch.succeed, foldl_resolve]
  exact
    { nodup := st.nodup
      alive := st.alive
      split := by
        refine st.split.trans ?_
        rw [List.append_assoc, List.append_assoc, List.cons_append, ← List.append_assoc]
        refine List.perm_middle.trans ?_
        rw [List.append_assoc]
      free := fun j mem => mono j (st.free j mem)
      lost_nil := st.lost_nil
      counts := fun j inside => Graph.getD_pending_finish sound.wired.toLinked fresh (st.counts j inside)
      ready := fun free => by
        have frontier := (st.ready free).finish sound.wired.toLinked fresh st.free
        simpa only [free, Bool.not_false, Bool.and_true] using frontier
      cursor := st.cursor
      remaining := by
        simp only [List.length_cons]
        omega }

/-- A node that succeeds after the call has failed is lost. -/
theorem Standing.discard (st : d.Standing p (i :: hands) done lost) (failed : d.failure ≠ none) :
    d.discard.Standing p hands done (i :: lost) :=
  { st with
    split := st.split.trans (by
      rw [List.append_assoc, List.append_assoc]
      exact List.Perm.append_left _ List.perm_middle)
    lost_nil := fun healthy => absurd healthy failed }

/-- A node that fails is lost. -/
theorem Standing.fail (st : d.Standing p (i :: hands) done lost) (error : RunError)
    (node : NodeId) : (d.fail error node).Standing p hands done (i :: lost) :=
  { st with
    split := st.split.trans (by
      rw [List.append_assoc, List.append_assoc]
      exact List.Perm.append_left _ List.perm_middle)
    lost_nil := fun healthy => by
      cases failed : d.failure <;> simp [Dispatch.fail, failed] at healthy }

/-! ## no call gets stuck -/

/-- While the call is well, a node is either done, in hand, or not started. -/
theorem Standing.mem_done (st : d.Standing p [] done lost) (healthy : d.failure = none) :
    ∀ j, j ∈ d.started ↔ j ∈ done := by
  intro j
  rw [st.split.mem_iff, st.lost_nil healthy]
  simp

/-- While no node is left and the call is well, all live nodes are done. -/
theorem Standing.all_done (sound : p.Sound)
    (st : d.Standing p [] done lost) (none : d.remaining = 0) :
    done.Perm p.liveIndices := by
  have nodup : done.Nodup :=
    (List.nodup_append'.mp (List.nodup_append'.mp (st.split.nodup_iff.mp st.nodup)).1).1
  have sub : done.Subperm p.liveIndices := List.subperm_of_subset nodup fun i mem => by
    have alive := st.alive i (st.started_of_done mem)
    exact Plan.mem_liveIndices.mpr ⟨sound.live_lt i alive, alive⟩
  have := st.remaining
  exact sub.perm_of_length_le (by omega)

/-- A fixed order has started in full once all live nodes are done. -/
theorem Standing.started_eq (sound : p.Sound)
    (st : d.Standing p [] done lost) (healthy : d.failure = none) (none : d.remaining = 0)
    (fixed : p.options.deterministic = true) : d.started.reverse = p.order := by
  have order := Graph.isOrder_dispatchOrder sound.wired.toLinked p.isLive
  rw [← sound.order fixed] at order
  have length : p.order.length ≤ d.started.length := by
    have sub : p.order.Subperm d.started := List.subperm_of_subset order.nodup fun i mem => by
      rw [st.mem_done healthy]
      have alive := (order.alive i mem).2
      exact (st.all_done sound none).mem_iff.mpr
        (Plan.mem_liveIndices.mpr ⟨sound.live_lt i alive, alive⟩)
    exact sub.length_le
  have cursor := st.cursor fixed
  have taken : d.started.length ≤ d.cursor := by
    rw [← List.length_reverse, cursor, List.length_take]
    omega
  rw [cursor, List.take_of_length_le (by omega)]

/-- While nodes are left and no worker has one in hand, one of them may start. -/
theorem Standing.exists_candidate (sound : p.Sound) (st : d.Standing p [] done lost)
    (healthy : d.failure = none) (more : d.remaining ≠ 0) :
    ∃ i d', d.candidate? p = some (i, d') := by
  have members := st.mem_done healthy
  obtain ⟨k, alive, fresh⟩ : ∃ k, p.isLive k = true ∧ k ∉ done := by
    by_contra all
    push Not at all
    have sub : p.liveIndices.Subperm done := List.subperm_of_subset Plan.nodup_liveIndices
      fun j mem => all j (Plan.mem_liveIndices.mp mem).2
    have := sub.length_le
    have := st.remaining
    omega
  -- of the nodes that are not done, one waits for none of the others
  obtain ⟨i, aliveI, freshI, zero⟩ :
      ∃ i, p.isLive i = true ∧ i ∉ done ∧ p.graph.waiting done i = 0 := by
    by_contra none
    push Not at none
    have : ∀ j < p.graph.size, p.isLive j = true → j ∈ done := by
      refine sound.wired.induction fun j inside producers aliveJ => ?_
      by_contra freshJ
      refine none j aliveJ freshJ (Graph.waiting_eq_zero.mpr fun m mem => ?_)
      exact producers m mem (sound.closed j aliveJ m mem)
    exact fresh (this k (sound.live_lt k alive) alive)
  unfold candidate?
  by_cases fixed : p.options.deterministic = true
  · rw [if_pos fixed]
    have order := Graph.isOrder_dispatchOrder sound.wired.toLinked p.isLive
    have all : i ∈ p.graph.dispatchOrder p.isLive ↔ i < p.graph.size ∧ p.isLive i = true :=
      Graph.mem_dispatchOrder sound.wired fun j _ aliveJ => sound.closed j aliveJ
    rw [← sound.order fixed] at order all
    have taken (j : Nat) : j ∈ p.order.take d.cursor ↔ j ∈ done := by
      rw [← members, ← st.cursor fixed, List.mem_reverse]
    have inside : d.cursor < p.order.length := by
      by_contra beyond
      refine freshI ((taken i).mp ?_)
      rw [List.take_of_length_le (by omega)]
      exact all.mpr ⟨sound.live_lt i aliveI, aliveI⟩
    have split := (List.take_append_drop d.cursor p.order).symm
    rw [List.drop_eq_getElem_cons inside] at split
    have free : p.graph.waiting done p.order[d.cursor] = 0 := by
      refine Graph.waiting_eq_zero.mpr fun j mem => (taken j).mp ?_
      simpa using order.before _ _ _ split j mem
    have count := st.counts _ (order.alive _ (List.getElem_mem inside)).1
    rw [free] at count
    simp only [List.getElem?_eq_getElem inside, count, if_true]
    exact ⟨_, _, rfl⟩
  · rw [if_neg fixed]
    have free : p.options.deterministic = false := by simpa using fixed
    have mem : i ∈ d.ready := ((st.ready free).mem_ready i).mpr
      ⟨sound.live_lt i aliveI, aliveI, fun old => freshI ((members i).mp old), zero⟩
    cases first : d.ready with
    | nil => simp [first] at mem
    | cons j rest => exact ⟨_, _, rfl⟩

end HomCircuit.Dispatch
