import HomCircuit.Proofs.Schedule.Progress
import HomCircuit.Schedule.Timeline

/-!
# HomCircuit.Proofs.Schedule.Clock

The schedule by the clock is one of the ways in which workers may take turns, and it comes to its
end: the moves that a call is given are enough for all workers to go.

```
what is left  =  (2 · nodes not started + busy workers + workers not gone) · (workers + 1) + awake
```

A worker that sleeps does so because another one is busy, and is roused when that one is done.

* `Timeline.advance_moves` — what the clock does is an interleaving;
* `Timeline.Sane.advance` — while primitives take no time, all workers are gone in the end;
* `Plan.execute_mayReturn` — so the answer of `Plan.execute` is one that the call may give.
-/

namespace HomCircuit

variable {e : Environment} {p : Plan} {C : Conduct e p}

namespace Crew

variable {c c' : Crew} {k : Nat} {r r' : Run} {t t' : Thread}

theorem update_update : (c.update k r t).update k r' t' = c.update k r' t' := by
  simp [update]

theorem update_self (found : c.threads[k]? = some t) : c.update k c.run t = c := by
  obtain ⟨inside, rfl⟩ := List.getElem?_eq_some_iff.mp found
  simp [update]

theorem getElem?_update (found : c.threads[k]? = some t) :
    (c.update k r t').threads[k]? = some t' := by
  have inside := (List.getElem?_eq_some_iff.mp found).1
  simp [update, inside]

/-- One worker alone gets from one state to another. -/
def Leads (e : Environment) (p : Plan) (k : Nat) (c c' : Crew) : Prop :=
  ∃ n, c.moves e p (List.replicate n (.worker k)) = c'

theorem Leads.refl : c.Leads e p k c := ⟨0, rfl⟩

theorem Leads.trans {c'' : Crew} (h : c.Leads e p k c') (h' : c'.Leads e p k c'') :
    c.Leads e p k c'' := by
  obtain ⟨n, rfl⟩ := h
  obtain ⟨m, rfl⟩ := h'
  exact ⟨n + m, by rw [List.replicate_add, moves_append]⟩

theorem Leads.move (found : c.threads[k]? = some t)
    (h : (c.update k (t.move e p c.run).1 (t.move e p c.run).2).Leads e p k c') :
    c.Leads e p k c' := by
  obtain ⟨n, same⟩ := h
  refine ⟨n + 1, ?_⟩
  rw [List.replicate_succ]
  change (c.move e p (.worker k)).moves e p _ = _
  rw [move_worker found, same]

end Crew

namespace Timeline

/-- The workers without their clocks. -/
def crew (t : Timeline) : Crew := ⟨t.run, t.workers.map (·.thread)⟩

/-! ## moves by the clock -/

theorem crew_update (t : Timeline) (k : Nat) (w : Worker) (run : Run) :
    (t.update k w run).crew = t.crew.update k run w.thread := by
  simp [crew, update, Crew.update, List.map_set]

/-- To be roused changes nothing but a clock. -/
theorem crew_rouse (t : Timeline) (time : Nat) : (t.rouse time).crew = t.crew := by
  have same (w : Worker) : (w.rouse time).thread = w.thread := by
    unfold Worker.rouse
    split <;> rfl
  simp [crew, rouse, same]

/-- A stretch of a job is some sections of its worker. -/
theorem leads_stretch {i k : Nat} (job : Job Run Unit) {c : Crew}
    (found : c.threads[k]? = some (.busy i job)) :
    c.Leads e p k (c.update k (stretch e job c.run).2.2 (.busy i (stretch e job c.run).2.1)) := by
  induction job generalizing c with
  | done a =>
      rw [stretch, Crew.update_self found]
      exact .refl
  | step act next ih =>
      have later := ih (act c.run).1 (c := c.update k (act c.run).2 (.busy i (next (act c.run).1)))
        (Crew.getElem?_update found)
      rw [Crew.update_update] at later
      exact .move found later
  | await ready next ih =>
      by_cases now : ready c.run = true
      · have later := ih (c := c.update k c.run (.busy i next)) (Crew.getElem?_update found)
        rw [Crew.update_update] at later
        rw [stretch, if_pos now]
        refine .move found ?_
        rw [Thread.move, if_pos now]
        exact later
      · rw [stretch, if_neg now, Crew.update_self found]
        exact .refl
  | announce calls next ih =>
      have later := ih (c := c.update k (c.run.announce e calls) (.busy i next))
        (Crew.getElem?_update found)
      rw [Crew.update_update] at later
      rw [stretch]
      refine .move found ?_
      split
      · exact later
      · exact .refl

/-- A move by the clock is some moves of one worker. -/
theorem leads_move (t : Timeline) (time : Nat) {k : Nat} {w : Worker}
    (found : t.workers[k]? = some w) : t.crew.Leads e p k (t.move e p time k w).crew := by
  have there : t.crew.threads[k]? = some w.thread := by simp [crew, found]
  obtain ⟨thread, due⟩ := w
  cases thread with
  | gone => exact .refl
  | idle =>
      refine .move there ?_
      simp only [move, Thread.move]
      show Crew.Leads e p k (t.crew.update k _ _) _
      rw [show t.crew.run = t.run from rfl]
      rcases t.run.next e p with ⟨turn, run⟩
      cases turn with
      | start i =>
          simp only [crew_update]
          exact .refl
      | wait =>
          simp only [crew_update]
          exact .refl
      | stop =>
          simp only [crew_rouse, crew_update]
          exact .refl
  | busy i job =>
      have stretched := leads_stretch (e := e) (p := p) job there
      rw [show t.crew.run = t.run from rfl] at stretched
      simp only [move]
      generalize stretch e job t.run = after at stretched ⊢
      obtain ⟨pause, rest, run⟩ := after
      cases rest with
      | done a =>
          simp only [crew_rouse, crew_update]
          refine stretched.trans (.move (Crew.getElem?_update there) ?_)
          rw [Crew.update_update]
          exact .refl
      | step act next =>
          simp only [crew_rouse, crew_update]
          exact stretched
      | await ready next =>
          simp only [crew_rouse, crew_update]
          exact stretched
      | announce calls next =>
          simp only [crew_rouse, crew_update]
          exact stretched

/-! ## who moves next -/

section Foremost

variable {t : Timeline}

/-- The worker that moves first, of the best so far and another one. -/
def earlier (t : Timeline) (best : Option (Nat × Nat × Worker)) (entry : Worker × Nat) :
    Option (Nat × Nat × Worker) :=
  match t.moment? entry.1, best with
  | none, _ => best
  | some time, none => some (time, entry.2, entry.1)
  | some time, some (earliest, _, _) =>
    if time < earliest then some (time, entry.2, entry.1) else best

theorem earlier_cases (best : Option (Nat × Nat × Worker)) (w : Worker) (k : Nat) :
    t.earlier best (w, k) = best ∨
      ∃ time, t.moment? w = some time ∧ t.earlier best (w, k) = some (time, k, w) := by
  unfold earlier
  cases now : t.moment? w with
  | none => exact .inl rfl
  | some time =>
      cases best with
      | none => exact .inr ⟨time, rfl, rfl⟩
      | some b =>
          by_cases first : time < b.1
          · exact .inr ⟨time, rfl, if_pos first⟩
          · exact .inl (if_neg first)

theorem earlier_eq_none {best : Option (Nat × Nat × Worker)} {entry : Worker × Nat}
    (h : t.earlier best entry = none) : best = none ∧ t.moment? entry.1 = none := by
  unfold earlier at h
  cases now : t.moment? entry.1 with
  | none =>
      rw [now] at h
      exact ⟨h, rfl⟩
  | some time =>
      rw [now] at h
      cases best with
      | none => contradiction
      | some b =>
          simp only at h
          split at h <;> contradiction

/-- The worker that moves next stands in its place, and moves then. -/
theorem of_foremost? {time k : Nat} {w : Worker} (h : t.foremost? = some (time, k, w)) :
    t.workers[k]? = some w ∧ t.moment? w = some time := by
  have chosen : ∀ time k w, t.workers.zipIdx.foldl t.earlier none = some (time, k, w) →
      t.workers[k]? = some w ∧ t.moment? w = some time := by
    refine List.foldlRecOn (motive := fun best => ∀ time k w, best = some (time, k, w) →
      t.workers[k]? = some w ∧ t.moment? w = some time) _ _ nofun fun best chosen entry mem => ?_
    intro time k w h
    rcases earlier_cases (t := t) best entry.1 entry.2 with kept | ⟨time', now, taken⟩
    · exact chosen time k w (kept.symm.trans h)
    · have same := taken.symm.trans h
      simp only [Option.some.injEq, Prod.mk.injEq] at same
      obtain ⟨rfl, rfl, rfl⟩ := same
      exact ⟨List.mem_zipIdx_iff_getElem?.mp mem, now⟩
  exact chosen time k w h

/-- When nobody moves next, nobody can move. -/
theorem moment?_eq_none (h : t.foremost? = none) : ∀ w ∈ t.workers, t.moment? w = none := by
  have nobody (l : List (Worker × Nat)) (best : Option (Nat × Nat × Worker))
      (h : l.foldl t.earlier best = none) : best = none ∧ ∀ e ∈ l, t.moment? e.1 = none := by
    induction l generalizing best with
    | nil => exact ⟨h, nofun⟩
    | cons e l ih =>
        obtain ⟨kept, others⟩ := ih _ h
        obtain ⟨none_, now⟩ := earlier_eq_none kept
        exact ⟨none_, List.forall_mem_cons.mpr ⟨now, others⟩⟩
  intro w mem
  obtain ⟨k, inside, rfl⟩ := List.getElem_of_mem mem
  exact (nobody _ none h).2 (_, k) (List.mem_zipIdx_iff_getElem?.mpr (List.getElem?_eq_getElem inside))

end Foremost

/-! ## when nobody can move -/

/-- An idle worker that will look for a node. -/
def awake (w : Worker) : Bool :=
  match w.thread with
  | .idle => w.due.isSome
  | _ => false

/-- What is left to do: each worker that is awake looks once in vain at most before less is left of
the rest. -/
def left (p : Plan) (t : Timeline) : Nat :=
  (2 * (p.liveIndices.length - t.run.dispatch.started.length) +
    t.crew.threads.countP Crew.isBusy + t.crew.threads.countP Crew.isPresent) *
    (t.workers.length + 1) + t.workers.countP awake

/-- Workers with a node are due, and if some worker sleeps, another one has a node. -/
structure Sane (C : Conduct e p) (t : Timeline) : Prop where
  valid : t.crew.Valid C
  due : ∀ w ∈ t.workers, Crew.isBusy w.thread = true → w.due.isSome = true
  watched : ∀ w ∈ t.workers, w.thread = .idle → w.due = none →
    0 < t.crew.threads.countP Crew.isBusy

variable {t : Timeline}

/-- While nobody can move, all workers are gone. -/
theorem Sane.allGone (calm : p.NeverWaits e) (s : t.Sane C) (h : t.foremost? = none) :
    t.crew.allGone = true := by
  have still (w : Worker) (mem : w ∈ t.workers) (ready : w.thread.isReady t.run = true) :
      w.due = none := by
    have now := moment?_eq_none h w mem
    rw [moment?, if_pos ready] at now
    simpa using now
  have resting : t.crew.threads.countP Crew.isBusy = 0 := by
    refine List.countP_eq_zero.mpr fun thread mem busy => ?_
    obtain ⟨k, inside, same⟩ := List.getElem_of_mem mem
    obtain ⟨w, mem', rfl⟩ := List.mem_map.mp mem
    have due := s.due w mem' busy
    cases found : w.thread with
    | idle => simp [found, Crew.isBusy] at busy
    | gone => simp [found, Crew.isBusy] at busy
    | busy i job =>
        have direct : job.Direct := s.valid.direct calm (k := k) (j := i) (by
          rw [List.getElem?_eq_getElem inside, same, found])
        have ready : w.thread.isReady t.run = true := by
          rw [found]
          cases job with
          | await ready next => exact direct.elim
          | _ => rfl
        rw [still w mem' ready] at due
        contradiction
  refine List.all_eq_true.mpr fun thread mem => ?_
  obtain ⟨w, mem', rfl⟩ := List.mem_map.mp mem
  cases found : w.thread with
  | gone => rfl
  | busy i job =>
      have := List.countP_eq_zero.mp resting _ mem
      simp [found, Crew.isBusy] at this
  | idle =>
      have ready : w.thread.isReady t.run = true := by
        rw [found]
        rfl
      have := s.watched w mem' found (still w mem' ready)
      omega

/-! ## every move leaves less to do -/

/-- Less of what counts most leaves less to do, however many workers are awake. -/
theorem score_lt {x y a b n : Nat} (less : x < y) (few : a ≤ n) :
    x * (n + 1) + a < y * (n + 1) + b := by
  have := Nat.mul_le_mul_right (n + 1) less
  rw [Nat.succ_mul] at this
  omega

theorem leads_valid (sound : p.Sound) {c c' : Crew} {k : Nat} (v : c.Valid C)
    (h : c.Leads e p k c') : c'.Valid C ∧ c.run.Follows c'.run := by
  obtain ⟨n, rfl⟩ := h
  have follows := v.follows sound (List.replicate n k)
  rw [List.map_replicate] at follows
  exact ⟨v.moves sound _, follows⟩

/-- A job that never waits runs to its end at once while primitives take no time. -/
theorem stretch_direct (quick : ∀ calls, e.duration calls = 0) {job : Job Run Unit}
    (direct : job.Direct) (r : Run) : ∃ run, stretch e job r = (0, .done (), run) := by
  induction job generalizing r with
  | done a => exact ⟨r, rfl⟩
  | step act next ih => exact ih _ (direct _) _
  | await ready next ih => exact direct.elim
  | announce calls next ih =>
      rw [stretch]
      simp only [quick]
      exact ih direct _

/-- A worker ends its node or goes, and all others are roused. -/
theorem Sane.roused (sound : p.Sound) (s : t.Sane C) {time k : Nat} {w : Worker} {run : Run}
    (leads : t.crew.Leads e p k (t.crew.update k run w.thread))
    (rests : Crew.isBusy w.thread = false)
    (less : (t.crew.threads.set k w.thread).countP Crew.isBusy +
        (t.crew.threads.set k w.thread).countP Crew.isPresent <
      t.crew.threads.countP Crew.isBusy + t.crew.threads.countP Crew.isPresent) :
    (((({ t with now := time } : Timeline).update k w run).rouse time).Sane C) ∧
      left p ((({ t with now := time } : Timeline).update k w run).rouse time) < left p t := by
  obtain ⟨valid, follows⟩ := leads_valid sound s.valid leads
  have crew : ((({ t with now := time } : Timeline).update k w run).rouse time).crew =
      t.crew.update k run w.thread := by
    rw [crew_rouse, crew_update]
    rfl
  refine ⟨⟨?_, ?_, ?_⟩, ?_⟩
  · rw [crew]
    exact valid
  · intro w' mem busy
    obtain ⟨v, there, rfl⟩ := List.mem_map.mp mem
    have same : v.rouse time = v ∨ v.thread = .idle := by
      unfold Worker.rouse
      split
      · next idle => exact .inr idle
      · exact .inl rfl
    rcases same with same | idle
    · rw [same] at busy ⊢
      rcases List.mem_or_eq_of_mem_set there with old | rfl
      · exact s.due v old busy
      · rw [rests] at busy
        contradiction
    · simp [Worker.rouse, idle, Crew.isBusy] at busy
  · intro w' mem idle due
    obtain ⟨v, there, rfl⟩ := List.mem_map.mp mem
    by_cases other : v.thread = .idle
    · simp [Worker.rouse, other] at due
    · have same : v.rouse time = v := by
        unfold Worker.rouse
        split
        · contradiction
        · rfl
      rw [same] at idle
      exact absurd idle other
  · have started := follows.started
    have length : ((({ t with now := time } : Timeline).update k w run).rouse time).workers.length =
        t.workers.length := by
      simp [rouse, update]
    unfold left
    rw [length, crew]
    refine score_lt ?_ ?_
    · show 2 * (p.liveIndices.length - run.dispatch.started.length) + _ + _ < _
      have started : t.run.dispatch.started.length ≤ run.dispatch.started.length := started
      simp only [Crew.update]
      omega
    · rw [← length]
      exact List.countP_le_length

section Moves

variable {time k : Nat} {w : Worker}

/-- A worker with a node ends it. -/
theorem Sane.move_busy (sound : p.Sound) (calm : p.NeverWaits e)
    (quick : ∀ calls, e.duration calls = 0) (s : t.Sane C) (found : t.workers[k]? = some w) {i : Nat} {job : Job Run Unit} (busy : w.thread = .busy i job) :
    (t.move e p time k w).Sane C ∧ left p (t.move e p time k w) < left p t := by
  have leads := leads_move (e := e) (p := p) t time found
  have there : t.crew.threads[k]? = some (.busy i job) := by simp [crew, found, busy]
  obtain ⟨inside, same⟩ := List.getElem?_eq_some_iff.mp there
  have present : 0 < t.crew.threads.countP Crew.isBusy ∧ 0 < t.crew.threads.countP Crew.isPresent :=
    ⟨List.countP_pos_iff.mpr ⟨_, List.mem_of_getElem? there, rfl⟩,
      List.countP_pos_iff.mpr ⟨_, List.mem_of_getElem? there, rfl⟩⟩
  obtain ⟨run, ended⟩ := stretch_direct quick (s.valid.direct calm there) t.run
  simp only [Timeline.move, busy, ended] at leads ⊢
  rw [crew_rouse, crew_update] at leads
  refine s.roused sound leads rfl ?_
  rw [List.countP_set inside, List.countP_set inside, same]
  simp only [Crew.isBusy, Crew.isPresent, if_true, Bool.false_eq_true, if_false]
  omega

theorem threads_update (t : Timeline) (k : Nat) (w : Worker) (run : Run) :
    (t.update k w run).crew.threads = t.crew.threads.set k w.thread := by
  rw [crew_update]
  rfl

/-- An idle worker gets a node. -/
theorem Sane.started (sound : p.Sound) (s : t.Sane C)
    (idle : t.crew.threads[k]? = some .idle) {i : Nat} {run : Run}
    (leads : t.crew.Leads e p k (t.crew.update k run (.busy i (nodeJob e p i))))
    (fresh : run.dispatch.started.length = t.run.dispatch.started.length + 1)
    (bound : run.dispatch.started.length ≤ p.liveIndices.length) :
    let t' := ({ t with now := time } : Timeline).update k ⟨.busy i (nodeJob e p i), some time⟩ run
    t'.Sane C ∧ left p t' < left p t := by
  intro t'
  obtain ⟨inside, same⟩ := List.getElem?_eq_some_iff.mp idle
  have present : 0 < t.crew.threads.countP Crew.isPresent :=
    List.countP_pos_iff.mpr ⟨_, List.mem_of_getElem? idle, rfl⟩
  obtain ⟨valid, -⟩ := leads_valid sound s.valid leads
  have threads : t'.crew.threads = t.crew.threads.set k (.busy i (nodeJob e p i)) :=
    threads_update _ k _ run
  have length : t'.workers.length = t.workers.length := by simp [t', update]
  refine ⟨⟨?_, fun w mem busy => ?_, fun _ _ _ _ => ?_⟩, ?_⟩
  · rw [crew_update]
    exact valid
  · rcases List.mem_or_eq_of_mem_set mem with old | rfl
    · exact s.due w old busy
    · rfl
  · rw [threads]
    exact List.countP_pos_iff.mpr ⟨_, List.mem_set inside _, rfl⟩
  · unfold left
    rw [threads, length]
    refine score_lt ?_ ?_
    · show 2 * (p.liveIndices.length - run.dispatch.started.length) + _ + _ < _
      rw [List.countP_set inside, List.countP_set inside, same]
      simp only [Crew.isBusy, Crew.isPresent, if_true, Bool.false_eq_true, if_false]
      omega
    · rw [← length]
      exact List.countP_le_length

/-- An idle worker that was awake goes to sleep while another one has a node. -/
theorem Sane.asleep (s : t.Sane C) (found : t.workers[k]? = some w) (idle : w.thread = .idle)
    (due : w.due.isSome = true) (busy : 0 < t.crew.threads.countP Crew.isBusy) :
    let t' := ({ t with now := time } : Timeline).update k ⟨.idle, none⟩ t.run
    t'.Sane C ∧ left p t' < left p t := by
  intro t'
  obtain ⟨inside, same⟩ := List.getElem?_eq_some_iff.mp found
  have crew : t'.crew = t.crew := by
    rw [crew_update]
    refine Crew.update_self (c := t.crew) ?_
    simp [Timeline.crew, found, idle]
  have awake : awake w = true := by
    unfold Timeline.awake
    rw [idle]
    exact due
  have more : 0 < t.workers.countP Timeline.awake :=
    List.countP_pos_iff.mpr ⟨w, List.mem_of_getElem? found, awake⟩
  refine ⟨⟨?_, fun v mem busy => ?_, fun _ _ _ _ => ?_⟩, ?_⟩
  · rw [crew]
    exact s.valid
  · rcases List.mem_or_eq_of_mem_set mem with old | rfl
    · exact s.due v old busy
    · contradiction
  · rw [crew]
    exact busy
  · have fewer : t'.workers.countP Timeline.awake + 1 = t.workers.countP Timeline.awake := by
      show (t.workers.set k ⟨.idle, none⟩).countP Timeline.awake + 1 = _
      have asleep : Timeline.awake ⟨.idle, none⟩ = false := rfl
      rw [List.countP_set inside, same, if_pos awake, asleep]
      simp only [Bool.false_eq_true, if_false]
      omega
    have length : t'.workers.length = t.workers.length := by simp [t', update]
    have run : t'.run = t.run := rfl
    unfold left
    rw [crew, length, run]
    omega

/-- An idle worker that is awake gets a node, goes to sleep, or goes. -/
theorem Sane.move_idle (sound : p.Sound) (s : t.Sane C) (found : t.workers[k]? = some w)
    (idle : w.thread = .idle) (due : w.due.isSome = true) :
    (t.move e p time k w).Sane C ∧ left p (t.move e p time k w) < left p t := by
  have leads := leads_move (e := e) (p := p) t time found
  have there : t.crew.threads[k]? = some .idle := by simp [crew, found, idle]
  obtain ⟨inside, same⟩ := List.getElem?_eq_some_iff.mp there
  have present : 0 < t.crew.threads.countP Crew.isPresent :=
    List.countP_pos_iff.mpr ⟨_, List.mem_of_getElem? there, rfl⟩
  simp only [Timeline.move, idle] at leads ⊢
  obtain ⟨run, told, -⟩ | ⟨i, run, told, fresh, bound⟩ | ⟨told, busy⟩ := s.valid.next_cases sound
  · replace told : t.run.next e p = (.stop, run) := told
    simp only [told] at leads ⊢
    rw [crew_rouse, crew_update] at leads
    refine s.roused sound leads rfl ?_
    rw [List.countP_set inside, List.countP_set inside, same]
    simp only [Crew.isBusy, Crew.isPresent, if_true, Bool.false_eq_true, if_false]
    omega
  · replace told : t.run.next e p = (.start i, run) := told
    simp only [told] at leads ⊢
    rw [crew_update] at leads
    exact s.started sound there leads fresh bound
  · replace told : t.run.next e p = (.wait, t.run) := told
    simp only [told]
    exact s.asleep found idle due busy

/-- Whoever moves leaves less to do. -/
theorem Sane.move (sound : p.Sound) (calm : p.NeverWaits e)
    (quick : ∀ calls, e.duration calls = 0) (s : t.Sane C) (h : t.foremost? = some (time, k, w)) :
    (t.move e p time k w).Sane C ∧ left p (t.move e p time k w) < left p t := by
  obtain ⟨found, now⟩ := of_foremost? h
  cases thread : w.thread with
  | gone => simp [moment?, thread, Thread.isReady] at now
  | busy i job => exact s.move_busy sound calm quick found thread
  | idle =>
      refine s.move_idle sound found thread ?_
      cases due : w.due with
      | none => simp [moment?, due] at now
      | some time => rfl

end Moves

/-! ## the whole schedule -/

/-- What the workers do by the clock is an interleaving, in which nobody else moves. -/
theorem advance_moves (e : Environment) (p : Plan) (fuel : Nat) (t : Timeline) :
    ∃ ks : List Nat, (advance e p fuel t).crew = t.crew.moves e p (ks.map .worker) := by
  induction fuel generalizing t with
  | zero => exact ⟨[], rfl⟩
  | succ fuel ih =>
      unfold Timeline.advance
      cases next : t.foremost? with
      | none => exact ⟨[], rfl⟩
      | some move =>
          obtain ⟨time, k, w⟩ := move
          obtain ⟨n, led⟩ := leads_move (e := e) (p := p) t time (of_foremost? next).1
          obtain ⟨ks, same⟩ := ih (t.move e p time k w)
          refine ⟨List.replicate n k ++ ks, ?_⟩
          rw [List.map_append, List.map_replicate, Crew.moves_append, led]
          exact same

/-- With enough moves, all workers are gone in the end. -/
theorem Sane.advance (sound : p.Sound) (calm : p.NeverWaits e)
    (quick : ∀ calls, e.duration calls = 0) {fuel : Nat} (s : t.Sane C) (enough : left p t ≤ fuel) :
    (advance e p fuel t).crew.allGone = true := by
  induction fuel generalizing t with
  | zero =>
      cases next : t.foremost? with
      | none => exact s.allGone calm next
      | some move =>
          have less := (s.move sound calm quick next).2
          omega
  | succ fuel ih =>
      unfold Timeline.advance
      cases next : t.foremost? with
      | none => exact s.allGone calm next
      | some move =>
          obtain ⟨s', less⟩ := s.move sound calm quick next
          exact ih s' (by omega)

/-- Workers that have not begun, all awake. -/
def begin (run : Run) (workers : Nat) : Timeline :=
  { workers := List.replicate workers ⟨.idle, some 0⟩, run }

theorem crew_begin (run : Run) (workers : Nat) :
    (begin run workers).crew = Crew.initial run workers := by
  simp [begin, crew, Crew.initial]

theorem Sane.begin {run : Run} {workers : Nat} (valid : (Crew.initial run workers).Valid C) :
    (begin run workers).Sane C where
  valid := by
    rw [crew_begin]
    exact valid
  due w mem busy := by
    obtain ⟨-, rfl⟩ := List.mem_replicate.mp mem
    rfl
  watched w mem idle due := by
    obtain ⟨-, rfl⟩ := List.mem_replicate.mp mem
    contradiction

/-- The moves that a call is given are enough. -/
theorem left_begin_le (p : Plan) (run : Run) (workers : Nat) :
    left p (begin run workers) ≤ bound p.graph.size workers := by
  have live : p.liveIndices.length ≤ p.graph.size := by
    refine (List.length_filter_le _ _).trans ?_
    rw [List.length_range]
  have length : (begin run workers).workers.length = workers := by simp [Timeline.begin]
  have idle : (begin run workers).crew.threads.countP Crew.isBusy = 0 := by
    rw [crew_begin]
    simp [Crew.initial, List.countP_replicate, Crew.isBusy]
  have present : (begin run workers).crew.threads.countP Crew.isPresent ≤ workers := by
    rw [crew_begin]
    exact List.countP_le_length.trans (by simp [Crew.initial])
  unfold left bound
  rw [idle, length]
  have few : (begin run workers).workers.countP awake ≤ workers := by
    refine List.countP_le_length.trans ?_
    rw [length]
  have less := score_lt (x := 2 * (p.liveIndices.length -
      (begin run workers).run.dispatch.started.length) + 0 +
        (begin run workers).crew.threads.countP Crew.isPresent)
    (y := 4 * p.graph.size + workers + 1) (b := 0) (by omega) few
  omega

end Timeline

/-- The reference primitives take no time. -/
theorem Environment.duration_reference (reference : e.primitives = .reference)
    (calls : List PrimitiveCall) : e.duration calls = 0 := by
  unfold Environment.duration
  rw [reference]
  induction calls with
  | nil => rfl
  | cons c calls ih => exact ih

/-- A call by the clock ends in a state that its workers may come to. -/
theorem Plan.execute_eq (e : Environment) (p : Plan) (workers : Nat)
    (supplied : List (ValueId × Value)) (resources : Resources) {run : Run}
    (bound : Run.bind e p supplied p.graph.arguments.toList (Run.initial p resources) =
      (.ok (), run)) :
    ∃ ks : List Nat, (((Timeline.begin run (min (max workers 1) run.dispatch.remaining)).advance e p
          (Timeline.bound p.graph.size (min (max workers 1) run.dispatch.remaining))).crew =
        (Plan.crew run workers).moves e p (ks.map .worker)) ∧
      p.execute e workers supplied resources =
        ((Plan.crew run workers).moves e p (ks.map .worker)).run.finish p (.ok ()) := by
  obtain ⟨ks, same⟩ := Timeline.advance_moves e p
    (Timeline.bound p.graph.size (min (max workers 1) run.dispatch.remaining))
    (Timeline.begin run (min (max workers 1) run.dispatch.remaining))
  rw [Timeline.crew_begin] at same
  refine ⟨ks, same, ?_⟩
  have ended := congrArg Crew.run same
  unfold Plan.execute
  rw [bound]
  simp only [Except.isOk, Except.toBool, if_true]
  exact congrArg (Run.finish p (.ok ())) ended

/-- A call by the clock whose arguments are refused says so. -/
theorem Plan.execute_refused {workers : Nat} {supplied : List (ValueId × Value)}
    {resources : Resources} {err : RunError} {run : Run}
    (bound : Run.bind e p supplied p.graph.arguments.toList (Run.initial p resources) =
      (.error err, run)) :
    p.execute e workers supplied resources = run.finish p (.error err) := by
  unfold Plan.execute
  rw [bound]
  rfl

/-- While no node waits and primitives take no time, the answer of a call by the clock is one that
the call may give. -/
theorem Plan.execute_mayReturn_of_neverWaits (sound : p.Sound) (calm : p.NeverWaits e)
    (quick : ∀ calls, e.duration calls = 0) {supplied : List (ValueId × Value)}
    {resources : Resources} (kept : C.kept [] resources) (admits : Stock.Admits e p supplied C.good)
    (workers : Nat) :
    p.MayReturn e workers supplied resources (p.execute e workers supplied resources) := by
  generalize begun : Run.bind e p supplied p.graph.arguments.toList (Run.initial p resources) = r
  obtain ⟨bound, run⟩ := r
  cases bound with
  | error err =>
      rw [Plan.execute_refused begun]
      exact .refused begun
  | ok u =>
      obtain ⟨ks, same, answer⟩ := Plan.execute_eq e p workers supplied resources begun
      have sane := Timeline.Sane.begin (Ledger.crew sound kept admits begun workers [])
      have gone := sane.advance sound calm quick (Timeline.left_begin_le p run _)
      rw [same] at gone
      rw [answer]
      exact .finished _ begun gone

/-- Under a discipline, and while primitives take no time, the answer of a call by the clock is one
that the call may give. -/
theorem Plan.execute_mayReturn {D : Discipline e p} (sound : p.Sound)
    (quick : ∀ calls, e.duration calls = 0) {supplied : List (ValueId × Value)}
    {resources : Resources} (kept : D.kept resources) (admits : Stock.Admits e p supplied D.good)
    (workers : Nat) :
    p.MayReturn e workers supplied resources (p.execute e workers supplied resources) :=
  Plan.execute_mayReturn_of_neverWaits (C := D.conduct) sound D.direct quick ⟨rfl, kept⟩ admits
    workers

end HomCircuit
