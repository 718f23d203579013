import HomCircuit.Proofs.Schedule.Returns

/-!
# HomCircuit.Proofs.Schedule.Progress

No call gets stuck: wherever its workers are, they can all go on until they are gone.

```
what is left  =  live nodes that have not started  +  workers that are not gone
```

A worker with a node can end it, since its job never waits. When no worker has a node, an idle one
either starts one or goes, so less is left.

* `Crew.Valid.exists_allGone` — a crew can go on until all of its workers are gone;
* `Plan.MayReturn.exists_answer` — so every beginning of a call leads to an answer.
-/

namespace HomCircuit

variable {e : Environment} {p : Plan} {C : Conduct e p}

/-- No more nodes have started than are live. -/
theorem Dispatch.Standing.length_started_le (sound : p.Sound) {d : Dispatch}
    {hands done lost : List Nat} (st : d.Standing p hands done lost) :
    d.started.length ≤ p.liveIndices.length := by
  refine (List.subperm_of_subset st.nodup fun i mem => ?_).length_le
  have alive := st.alive i mem
  exact Plan.mem_liveIndices.mpr ⟨sound.live_lt i alive, alive⟩

/-! ## one worker ends its node -/

theorem direct_releaseAll (slots : List Nat) : (releaseAll slots).Direct := by
  induction slots with
  | nil => exact Job.Direct.pure
  | cons slot rest ih => exact Job.Direct.change.bind fun _ => ih

theorem direct_retire (p : Plan) (i : Nat) (done : Performed) : (retire p i done).Direct :=
  (direct_releaseAll _).bind fun _ => Job.Direct.change

/-- What a worker has left of its node never waits. -/
theorem Phase.At.direct (calm : p.NeverWaits e) {ph : Phase} {j : Nat} {job : Job Run Unit}
    (here : ph.At C (.busy j job)) : job.Direct := by
  cases ph with
  | performing i inputs own =>
      obtain ⟨-, rest, rfl, direct, -⟩ := here
      exact (direct calm).bind (direct_retire p i)
  | retiring i owed own done =>
      obtain ⟨-, rfl⟩ := here
      exact (direct_releaseAll owed).bind fun _ => Job.Direct.change
  | leaving =>
      match job, here with
      | .done (), _ => exact trivial
  | idle => exact here.elim
  | gone => exact here.elim

namespace Crew

theorem move_worker {c : Crew} {k : Nat} {t : Thread} (found : c.threads[k]? = some t) :
    c.move e p (.worker k) = c.update k (t.move e p c.run).1 (t.move e p c.run).2 := by
  simp only [Crew.move, found, Option.elim_some, Crew.advance_eq e p found]

/-- A worker whose job never waits can end it while the others rest. -/
theorem exists_idle {j : Nat} {job : Job Run Unit} (direct : job.Direct) :
    ∀ {c : Crew} {k : Nat}, c.threads[k]? = some (.busy j job) →
      ∃ n, (c.moves e p (List.replicate n (.worker k))).threads = c.threads.set k .idle := by
  induction job with
  | done a =>
      intro c k found
      refine ⟨1, ?_⟩
      change (c.move e p (.worker k)).threads = _
      rw [move_worker found]
      rfl
  | step act next ih =>
      intro c k found
      obtain ⟨inside, -⟩ := List.getElem?_eq_some_iff.mp found
      obtain ⟨n, idle⟩ := ih (act c.run).1 (direct _)
        (c := c.move e p (.worker k)) (k := k) (by
          rw [move_worker found]
          simp [Crew.update, Thread.move, inside])
      refine ⟨n + 1, ?_⟩
      rw [List.replicate_succ]
      change ((c.move e p (.worker k)).moves e p _).threads = _
      rw [idle, move_worker found, Crew.update, List.set_set]
  | await ready next ih => exact direct.elim
  | announce calls next ih =>
      intro c k found
      obtain ⟨inside, -⟩ := List.getElem?_eq_some_iff.mp found
      obtain ⟨n, idle⟩ := ih direct (c := c.move e p (.worker k)) (k := k) (by
          rw [move_worker found]
          simp [Crew.update, Thread.move, inside])
      refine ⟨n + 1, ?_⟩
      rw [List.replicate_succ]
      change ((c.move e p (.worker k)).moves e p _).threads = _
      rw [idle, move_worker found, Crew.update, List.set_set]

/-! ## all workers end their nodes -/

/-- A worker with a node. -/
def isBusy : Thread → Bool
  | .busy _ _ => true
  | _ => false

/-- A worker that is not gone. -/
def isPresent : Thread → Bool
  | .gone => false
  | _ => true

/-- What is left to do. -/
def left (p : Plan) (c : Crew) : Nat :=
  (p.liveIndices.length - c.run.dispatch.started.length) + c.threads.countP isPresent

theorem moves_append (c : Crew) (ms ms' : List Move) :
    c.moves e p (ms ++ ms') = (c.moves e p ms).moves e p ms' := List.foldl_append

/-- A worker that has a node never waits. -/
theorem Valid.direct (calm : p.NeverWaits e) {c : Crew} (v : c.Valid C) {k j : Nat}
    {job : Job Run Unit} (found : c.threads[k]? = some (.busy j job)) : job.Direct := by
  obtain ⟨phases, shelf, done, lost, manned, -⟩ := v
  have inside : k < phases.length := by
    rw [manned.length]
    exact (List.getElem?_eq_some_iff.mp found).1
  exact (manned.here k _ _ (List.getElem?_eq_getElem inside) found).direct calm

/-- Moves lead to later states of the call. -/
theorem Valid.follows (sound : p.Sound) {c : Crew} (v : c.Valid C) (ks : List Nat) :
    c.run.Follows (c.moves e p (ks.map .worker)).run := by
  induction ks generalizing c with
  | nil => exact .refl _
  | cons k rest ih =>
      have step := v.worker sound k
      exact step.2.trans (ih step.1)

/-- All workers can come to rest, and then no more is left than before. -/
theorem Valid.exists_rest (sound : p.Sound) (calm : p.NeverWaits e) {c : Crew} (v : c.Valid C) :
    ∃ ks : List Nat, (c.moves e p (ks.map .worker)).threads.countP isBusy = 0 ∧
      (c.moves e p (ks.map .worker)).left p ≤ c.left p := by
  generalize busy : c.threads.countP isBusy = n
  induction n generalizing c with
  | zero => exact ⟨[], busy, le_refl _⟩
  | succ n ih =>
      obtain ⟨t, mem, isBusy_t⟩ := List.countP_pos_iff.mp (show 0 < c.threads.countP isBusy by omega)
      obtain ⟨k, inside, rfl⟩ := List.mem_iff_getElem.mp mem
      have found : c.threads[k]? = some c.threads[k] := List.getElem?_eq_getElem inside
      cases thread : c.threads[k] with
      | idle => simp [thread, isBusy] at isBusy_t
      | gone => simp [thread, isBusy] at isBusy_t
      | busy j job =>
          rw [thread] at found
          obtain ⟨m, idle⟩ := exists_idle (e := e) (p := p) (v.direct calm found) found
          rw [← List.map_replicate (f := Move.worker)] at idle
          have next := v.moves sound ((List.replicate m k).map .worker)
          have follows := v.follows sound (List.replicate m k)
          have fewer : (c.moves e p ((List.replicate m k).map .worker)).threads.countP isBusy = n := by
            rw [idle, List.countP_set inside, thread]
            simp only [isBusy, if_true, Bool.false_eq_true, if_false]
            omega
          have same : (c.moves e p ((List.replicate m k).map .worker)).threads.countP isPresent =
              c.threads.countP isPresent := by
            rw [idle, List.countP_set inside, thread]
            have : 0 < c.threads.countP isPresent :=
              List.countP_pos_iff.mpr ⟨_, mem, by rw [thread]; rfl⟩
            simp only [isPresent, if_true]
            omega
          obtain ⟨ks, rest, less⟩ := ih next fewer
          refine ⟨List.replicate m k ++ ks, ?_, ?_⟩
          · rw [List.map_append, moves_append]
            exact rest
          · rw [List.map_append, moves_append]
            refine less.trans ?_
            have := follows.started
            simp only [left, same]
            omega

/-- While all workers are at rest, none has a node in hand. -/
theorem Valid.at_rest {c : Crew} (v : c.Valid C) (rest : c.threads.countP isBusy = 0) :
    ∃ shelf own owed done lost, Ledger C c.run shelf own [] owed done lost := by
  obtain ⟨phases, shelf, done, lost, manned, ledger, -⟩ := v
  have empty : phases.flatMap Phase.hands = [] := by
    refine List.flatMap_eq_nil_iff.mpr fun ph mem => ?_
    obtain ⟨t, mem', here⟩ := manned.exists_at mem
    have resting := List.countP_eq_zero.mp rest t mem'
    cases t with
    | idle => cases ph <;> first | rfl | exact here.elim
    | gone => cases ph <;> first | rfl | exact here.elim
    | busy j job => simp [isBusy] at resting
  rw [empty] at ledger
  exact ⟨shelf, _, _, done, lost, ledger⟩

/-- A worker that asks goes, starts a node that had not started, or waits for a worker with a
node. -/
theorem Valid.next_cases (sound : p.Sound) {c : Crew} (v : c.Valid C) :
    (∃ run, c.run.next e p = (.stop, run) ∧
      c.run.dispatch.started.length ≤ run.dispatch.started.length) ∨
    (∃ i run, c.run.next e p = (.start i, run) ∧
      run.dispatch.started.length = c.run.dispatch.started.length + 1 ∧
      run.dispatch.started.length ≤ p.liveIndices.length) ∨
    (c.run.next e p = (.wait, c.run) ∧ 0 < c.threads.countP isBusy) := by
  simp only [Run.next]
  generalize c.run.resources.cancellation.isCancelled e.token = cancelled
  rcases Dispatch.next_cases p c.run.dispatch cancelled with
    ⟨told, -⟩ | ⟨healthy, more, ⟨i, d', found, told⟩ | ⟨none, told⟩⟩
  · rw [told]
    exact .inl ⟨_, rfl, (c.run.follows_notice cancelled).started⟩
  · obtain ⟨phases, shelf, done, lost, -, ledger, -⟩ := v
    obtain ⟨standing, started, -⟩ := ledger.standing.start sound found
    have bound := standing.length_started_le sound
    rw [told]
    refine .inr (.inl ⟨i, _, rfl, ?_, bound⟩)
    show (i :: d'.started).length = _
    rw [started, List.length_cons]
  · rw [told]
    refine .inr (.inr ⟨rfl, Nat.pos_of_ne_zero fun rest => ?_⟩)
    obtain ⟨shelf, own, owed, done, lost, ledger⟩ := v.at_rest rest
    obtain ⟨i, d', found⟩ := ledger.standing.exists_candidate sound healthy more
    rw [none] at found
    contradiction

/-- An idle worker among workers at rest starts a node or goes, so less is left. -/
theorem Valid.left_lt (sound : p.Sound) {c : Crew} (v : c.Valid C)
    (rest : c.threads.countP isBusy = 0) {k : Nat} (idle : c.threads[k]? = some .idle) :
    (c.move e p (.worker k)).left p < c.left p := by
  obtain ⟨inside, thread⟩ := List.getElem?_eq_some_iff.mp idle
  have present : 0 < c.threads.countP isPresent :=
    List.countP_pos_iff.mpr ⟨_, List.getElem_mem inside, by rw [thread]; rfl⟩
  rw [move_worker idle]
  simp only [Thread.move]
  obtain ⟨run, told, follows⟩ | ⟨i, run, told, started, bound⟩ | ⟨-, busy⟩ := v.next_cases sound
  · rw [told]
    simp only [left, Crew.update, List.countP_set inside, thread, isPresent, if_true,
      Bool.false_eq_true, if_false]
    omega
  · rw [told]
    simp only [left, Crew.update, List.countP_set inside, thread, isPresent, if_true]
    omega
  · omega

/-- Wherever its workers are, a crew can go on until all of them are gone. -/
theorem Valid.exists_allGone (sound : p.Sound) (calm : p.NeverWaits e) {c : Crew} (v : c.Valid C) :
    ∃ ks : List Nat, (c.moves e p (ks.map .worker)).allGone = true := by
  generalize remains : c.left p = n
  induction n using Nat.strong_induction_on generalizing c with
  | _ n ih =>
      obtain ⟨ks, rest, less⟩ := v.exists_rest sound calm
      have v' := v.moves sound (ks.map .worker)
      by_cases gone : (c.moves e p (ks.map .worker)).allGone = true
      · exact ⟨ks, gone⟩
      · obtain ⟨k, idle⟩ : ∃ k, (c.moves e p (ks.map .worker)).threads[k]? =
            some Thread.idle := by
          simp only [allGone, List.all_eq_true, not_forall] at gone
          obtain ⟨t, mem, present⟩ := gone
          obtain ⟨k, inside, same⟩ := List.mem_iff_getElem.mp mem
          have resting := List.countP_eq_zero.mp rest t mem
          refine ⟨k, ?_⟩
          rw [List.getElem?_eq_getElem inside, same]
          cases t with
          | idle => rfl
          | busy j job => simp [isBusy] at resting
          | gone => simp at present
        have fewer := v'.left_lt sound rest idle
        obtain ⟨ks', gone'⟩ := ih _ (by omega) (v'.worker sound k).1 rfl
        refine ⟨ks ++ k :: ks', ?_⟩
        rw [List.map_append, moves_append]
        exact gone'

end Crew

/-- However the workers of a call have begun, they can go on to an answer if no node waits. -/
theorem Plan.exists_answer_of_neverWaits (sound : p.Sound) (calm : p.NeverWaits e)
    {supplied : List (ValueId × Value)} {resources : Resources} {run : Run}
    (kept : C.kept [] resources) (admits : Stock.Admits e p supplied C.good)
    (bound : Run.bind e p supplied p.graph.arguments.toList (Run.initial p resources) =
      (.ok (), run)) (workers : Nat) (ms : List Move) :
    ∃ ks : List Nat, p.MayReturn e workers supplied resources
      (((Plan.crew run workers).moves e p (ms ++ ks.map .worker)).run.finish p (.ok ())) := by
  obtain ⟨ks, gone⟩ :=
    (Ledger.crew sound kept admits bound workers ms).exists_allGone sound calm
  refine ⟨ks, .finished _ bound ?_⟩
  rw [Crew.moves_append]
  exact gone

/-- Under a discipline, however the workers of a call have begun, they can go on to an answer. -/
theorem Plan.exists_answer {D : Discipline e p} (sound : p.Sound)
    {supplied : List (ValueId × Value)} {resources : Resources} {run : Run} (kept : D.kept resources)
    (admits : Stock.Admits e p supplied D.good)
    (bound : Run.bind e p supplied p.graph.arguments.toList (Run.initial p resources) =
      (.ok (), run)) (workers : Nat) (ms : List Move) :
    ∃ ks : List Nat, p.MayReturn e workers supplied resources
      (((Plan.crew run workers).moves e p (ms ++ ks.map .worker)).run.finish p (.ok ())) :=
  Plan.exists_answer_of_neverWaits (C := D.conduct) sound D.direct ⟨rfl, kept⟩ admits bound workers ms

end HomCircuit
