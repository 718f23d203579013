import HomCircuit.Proofs.Schedule.Blind
import HomCircuit.Proofs.Schedule.Clock

/-!
# HomCircuit.Proofs.Schedule.Cancelled

What a cancellation does to a call: no node starts any more, and that is all.

```
cancelled, and a worker asks       the call has failed, and the worker goes
cancelled from the beginning       GraphCancelled, and all live nodes are skipped
```

* `Cancellation.Lasts` — a token is cancelled, and stays so for a number of epochs;
* `Crew.advances` — how often all that is in flight is cancelled in an interleaving;
* `Crew.lasts_moves` — once its token is cancelled, a call starts nothing;
* `Plan.cancelled_moves`, `Plan.cancelled_execute` — what a call comes to whose token is cancelled when
  it begins.
-/

namespace HomCircuit

/-! ## epochs -/

namespace Cancellation

/-- What a signal of a primitive does. -/
def obey (s : Cancellation) : Signal → Cancellation
  | .cancelHanded => s.raiseHanded
  | .cancelInFlight => s.advance

/-- How often all that is in flight was cancelled since a token was issued, as the epochs tell. -/
def since (s : Cancellation) (t : CancelToken) : Nat := t.epoch.elim 0 fun e => (s.epoch - e).toNat

variable {s : Cancellation} {t : CancelToken} {n : Nat}

theorem isCancelled_iff_since : s.isCancelled t = true ↔ t.number ∈ s.raised ∨ s.since t ≠ 0 := by
  obtain ⟨number, epoch⟩ := t
  cases epoch with
  | none => simp [isCancelled, since]
  | some e =>
      have apart : (s.epoch - e).toNat ≠ 0 ↔ e ≠ s.epoch := by
        rw [ne_eq, ← UInt64.toNat_zero, UInt64.toNat_inj, sub_eq_zero, eq_comm]
      simp [isCancelled, since, apart]

/-- The epochs wrap around, so the count never runs ahead. -/
theorem since_advance_le (s : Cancellation) (t : CancelToken) : s.advance.since t ≤ s.since t + 1 := by
  obtain ⟨number, epoch⟩ := t
  cases epoch with
  | none => exact Nat.zero_le _
  | some e =>
      simp only [since, advance, Option.elim_some, add_sub_right_comm, UInt64.toNat_add]
      exact Nat.mod_le _ _

/-- A token is cancelled, and stays so while all that is in flight is cancelled so many times. -/
structure Lasts (s : Cancellation) (t : CancelToken) (n : Nat) : Prop where
  cancelled : s.isCancelled t = true
  room : s.since t + n < 2 ^ 64

namespace Lasts

theorem weaken {m : Nat} (h : s.Lasts t n) (less : m ≤ n) : s.Lasts t m :=
  ⟨h.cancelled, by have := h.room; omega⟩

theorem raise (h : s.Lasts t n) (x : CancelToken) : (s.raise x).Lasts t n where
  cancelled := isCancelled_iff_since.mpr
    ((isCancelled_iff_since.mp h.cancelled).imp (List.mem_cons_of_mem _) id)
  room := h.room

theorem raiseHanded (h : s.Lasts t n) : s.raiseHanded.Lasts t n := by
  unfold Cancellation.raiseHanded
  cases s.handed with
  | none => exact h
  | some x => exact h.raise x

/-- One more epoch does not undo it. -/
theorem advance (h : s.Lasts t (n + 1)) : s.advance.Lasts t n where
  cancelled := by
    refine isCancelled_iff_since.mpr ((isCancelled_iff_since.mp h.cancelled).imp id fun later => ?_)
    obtain ⟨number, epoch⟩ := t
    cases epoch with
    | none => exact absurd rfl later
    | some e =>
        have room := h.room
        simp only [since, Option.elim_some] at later room ⊢
        simp only [Cancellation.advance, add_sub_right_comm, UInt64.toNat_add, UInt64.reduceToNat]
        omega
  room := by
    have := since_advance_le s t
    have := h.room
    omega

theorem obeys (signals : List Signal) (h : s.Lasts t (signals.count .cancelInFlight + n)) :
    (signals.foldl obey s).Lasts t n := by
  induction signals generalizing s with
  | nil => simpa using h
  | cons signal rest ih =>
      cases signal with
      | cancelHanded => exact ih (Lasts.raiseHanded (h.weaken (by simp)))
      | cancelInFlight =>
          refine ih (Lasts.advance (h.weaken ?_))
          simp only [List.count_cons_self]
          omega

end Lasts

end Cancellation

/-! ## sections -/

/-- The signals that primitives send in the next section of a worker. -/
def Thread.signals (e : Environment) : Thread → List Signal
  | .busy _ (.announce calls _) => calls.flatMap fun c => e.primitives.signals c.op
  | _ => []

/-- What a worker is about to do does not look at cancellations, and starts no node. -/
def Thread.Blind : Thread → Prop
  | .busy _ job => (∀ s, job.Blind (Run.under s)) ∧ job.StartsNone
  | _ => True

section Sections

variable {e : Environment} {p : Plan} {r : Run} {t : Thread}

/-- Signals are obeyed one after the other, and nothing else depends on cancellations. -/
theorem Run.announce_under (calls : List PrimitiveCall) (s : Cancellation) (r : Run) :
    (r.under s).announce e calls =
      (r.announce e calls).under
        ((calls.flatMap fun c => e.primitives.signals c.op).foldl Cancellation.obey s) := by
  induction calls generalizing r s with
  | nil => rfl
  | cons c rest ih =>
      rw [List.flatMap_cons, List.foldl_append]
      exact ih _ { r with resources := r.resources.announce e.primitives c }

/-- A worker that asks for a node when the call is cancelled is told to stop. -/
theorem Run.next_of_cancelled (h : r.resources.cancellation.isCancelled e.token = true) :
    r.next e p = (.stop, { r with dispatch := r.dispatch.notice true }) := by
  have failed : (r.dispatch.notice true).failure.isSome = true := by
    cases found : r.dispatch.failure <;> simp [Dispatch.notice, found]
  have stop : r.dispatch.next p true = (.stop, r.dispatch.notice true) := by
    simp [Dispatch.next, failed]
  simp only [Run.next, h, stop]

theorem Thread.Blind.move (h : t.Blind) : (t.move e p r).2.Blind := by
  match t, h with
  | .gone, _ => exact trivial
  | .idle, _ =>
      simp only [Thread.move]
      split
      · exact ⟨fun _ => blind_nodeJob _, startsNone_nodeJob _⟩
      · exact trivial
      · exact trivial
  | .busy _ (.done ()), _ => exact trivial
  | .busy i (.step act next), h => exact ⟨fun s => (h.1 s).2 _, (h.2 r trivial).2⟩
  | .busy i (.await ready next), h =>
      simp only [Thread.move]
      split
      · exact ⟨fun s => (h.1 s).2, h.2⟩
      · exact h
  | .busy i (.announce calls next), h => exact h

/-- A worker changes the cancellations by signals alone. -/
theorem Thread.Blind.cancellation_move (h : t.Blind) :
    (t.move e p r).1.resources.cancellation =
      (t.signals e).foldl Cancellation.obey r.resources.cancellation := by
  match t, h with
  | .gone, _ => rfl
  | .idle, _ =>
      have same := r.resources_next (e := e) (p := p)
      simp only [Thread.move]
      generalize r.next e p = next at same ⊢
      obtain ⟨turn, r'⟩ := next
      cases turn <;> exact congrArg Resources.cancellation same
  | .busy _ (.done ()), _ => rfl
  | .busy i (.step act next), h =>
      have seen := (h.1 r.resources.cancellation).1 r
      exact congrArg (·.2.resources.cancellation) seen
  | .busy i (.await ready next), _ => rfl
  | .busy i (.announce calls next), _ =>
      have seen := Run.announce_under (e := e) calls r.resources.cancellation r
      exact congrArg (·.resources.cancellation) seen

/-- Once the call is cancelled, no section starts a node. -/
theorem Thread.Blind.started_move (h : t.Blind)
    (cancelled : r.resources.cancellation.isCancelled e.token = true) :
    (t.move e p r).1.dispatch.started = r.dispatch.started := by
  match t, h with
  | .gone, _ => rfl
  | .idle, _ =>
      simp only [Thread.move, Run.next_of_cancelled cancelled, Dispatch.notice]
      split <;> rfl
  | .busy _ (.done ()), _ => rfl
  | .busy i (.step act next), h => exact (h.2 r trivial).1
  | .busy i (.await ready next), _ => rfl
  | .busy i (.announce calls next), _ => rfl

end Sections

/-! ## interleavings -/

namespace Crew

variable {e : Environment} {p : Plan} {c : Crew} {run : Run} {workers : Nat} {t : CancelToken}

/-- The cancellations as a crew sees them. -/
def cancellation (c : Crew) : Cancellation := c.run.resources.cancellation

/-- How often a move cancels all that is in flight. -/
def advancesBy (e : Environment) (c : Crew) : Move → Nat
  | .worker k => (c.threads[k]?.elim [] (Thread.signals e)).count .cancelInFlight
  | .raise _ => 0
  | .cancelInFlight => 1

/-- How often all that is in flight is cancelled in an interleaving, from outside and by signals. -/
def advances (e : Environment) (p : Plan) (c : Crew) : List Move → Nat
  | [] => 0
  | m :: ms => c.advancesBy e m + (c.move e p m).advances e p ms

/-- No worker is about to look at cancellations, unless it asks for a node. -/
def Blind (c : Crew) : Prop := ∀ t ∈ c.threads, t.Blind

theorem Blind.initial : (Crew.initial run workers).Blind := by
  intro t mem
  obtain ⟨-, rfl⟩ := List.mem_replicate.mp mem
  trivial

theorem Blind.move (h : c.Blind) (m : Move) : (c.move e p m).Blind := by
  cases m with
  | raise x => exact h
  | cancelInFlight => exact h
  | worker k =>
      cases found : c.threads[k]? with
      | none => simpa [Crew.move, found] using h
      | some t =>
          rw [move_worker found]
          intro t' mem
          rcases List.mem_or_eq_of_mem_set mem with old | rfl
          · exact h t' old
          · exact (h t (List.mem_of_getElem? found)).move

theorem Blind.moves (h : c.Blind) (ms : List Move) : (c.moves e p ms).Blind := by
  induction ms generalizing c with
  | nil => exact h
  | cons m ms ih => exact ih (h.move m)

/-- No move brings in a worker. -/
theorem length_move (c : Crew) (m : Move) :
    (c.move e p m).threads.length = c.threads.length := by
  cases m with
  | raise x => rfl
  | cancelInFlight => rfl
  | worker k =>
      cases found : c.threads[k]? with
      | none => simp [Crew.move, found]
      | some t =>
          rw [move_worker found]
          exact List.length_set

theorem length_moves (c : Crew) (ms : List Move) :
    (c.moves e p ms).threads.length = c.threads.length := by
  induction ms generalizing c with
  | nil => rfl
  | cons m ms ih => exact (ih _).trans (c.length_move m)

/-- What a move does to a cancelled call: it stays cancelled, and no node starts. -/
theorem lasts_move (blind : c.Blind) (m : Move) {n : Nat}
    (h : c.cancellation.Lasts e.token (c.advancesBy e m + n)) :
    (c.move e p m).cancellation.Lasts e.token n ∧
      (c.move e p m).run.dispatch.started = c.run.dispatch.started := by
  cases m with
  | raise x => exact ⟨(h.weaken (Nat.le_add_left _ _)).raise x, rfl⟩
  | cancelInFlight => exact ⟨(h.weaken (Nat.le_of_eq (Nat.add_comm _ _))).advance, rfl⟩
  | worker k =>
      cases found : c.threads[k]? with
      | none =>
          have same : c.move e p (.worker k) = c := by simp [Crew.move, found]
          rw [same]
          exact ⟨h.weaken (Nat.le_add_left _ _), rfl⟩
      | some t =>
          have quiet := blind t (List.mem_of_getElem? found)
          simp only [advancesBy, found, Option.elim_some] at h
          rw [move_worker found]
          refine ⟨?_, quiet.started_move h.cancelled⟩
          have changed := quiet.cancellation_move (e := e) (p := p) (r := c.run)
          simp only [cancellation, update, changed]
          exact h.obeys (t.signals e)

/-- Once its token is cancelled, a call stays cancelled, and no node starts. -/
theorem lasts_moves (blind : c.Blind) (ms : List Move)
    (h : c.cancellation.Lasts e.token (c.advances e p ms)) :
    (c.moves e p ms).cancellation.isCancelled e.token = true ∧
      (c.moves e p ms).run.dispatch.started = c.run.dispatch.started := by
  induction ms generalizing c with
  | nil => exact ⟨h.cancelled, rfl⟩
  | cons m ms ih =>
      obtain ⟨lasts, same⟩ := lasts_move (p := p) blind m h
      obtain ⟨cancelled, started⟩ := ih (blind.move m) lasts
      exact ⟨cancelled, started.trans same⟩

/-! ## calls that begin cancelled -/

/-- A call in which nothing has happened, but that some workers have noticed the cancellation. -/
structure Halted (run : Run) (c : Crew) : Prop where
  threads : ∀ t ∈ c.threads, t = .idle ∨ t = .gone
  quiet : c.run = run.under c.cancellation ∨
    c.run = { run with dispatch := run.dispatch.notice true }.under c.cancellation
  noticed : .gone ∈ c.threads →
    c.run = { run with dispatch := run.dispatch.notice true }.under c.cancellation

theorem Halted.initial : (Crew.initial run workers).Halted run where
  threads t mem := .inl (List.mem_replicate.mp mem).2
  quiet := .inl rfl
  noticed mem := by simpa using (List.mem_replicate.mp mem).2

/-- A cancellation is noticed once. -/
theorem notice_notice (d : Dispatch) : (d.notice true).notice true = d.notice true := by
  cases failed : d.failure <;> simp [Dispatch.notice, failed]

/-- Whoever asks for a node goes. -/
theorem Halted.ask (h : c.Halted run) (cancelled : c.cancellation.isCancelled e.token = true)
    {k : Nat} (found : c.threads[k]? = some .idle) :
    (c.move e p (.worker k)).Halted run ∧ (c.move e p (.worker k)).threads = c.threads.set k .gone ∧
      (c.move e p (.worker k)).cancellation = c.cancellation := by
  have asked : c.move e p (.worker k) =
      c.update k { c.run with dispatch := c.run.dispatch.notice true } .gone := by
    rw [move_worker found]
    simp only [Thread.move, Run.next_of_cancelled (p := p) cancelled]
  rw [asked]
  have noticed : { c.run with dispatch := c.run.dispatch.notice true } =
      { run with dispatch := run.dispatch.notice true }.under c.cancellation := by
    rcases h.quiet with same | same
    · rw [same]
      rfl
    · rw [same]
      simp only [Run.under, notice_notice]
  refine ⟨⟨fun t mem => ?_, .inr noticed, fun _ => noticed⟩, rfl, rfl⟩
  rcases List.mem_or_eq_of_mem_set mem with old | rfl
  · exact h.threads t old
  · exact .inr rfl

theorem Halted.cancel (h : c.Halted run) (f : Cancellation → Cancellation) :
    (c.cancel f).Halted run := by
  have later {r : Run} (same : c.run = r.under c.cancellation) :
      (c.cancel f).run = r.under (f c.cancellation) :=
    (congrArg (Run.under (f c.cancellation)) same).trans rfl
  exact ⟨h.threads, h.quiet.imp later later, fun mem => later (h.noticed mem)⟩

/-- Workers that move go, and nothing else happens. -/
theorem Halted.move (h : c.Halted run) (m : Move) {n : Nat}
    (lasts : c.cancellation.Lasts e.token ([m].count .cancelInFlight + n)) :
    (c.move e p m).Halted run ∧ (c.move e p m).cancellation.Lasts e.token n ∧
      ∀ k < c.threads.length, (m = .worker k ∨ c.threads[k]? = some .gone) →
        (c.move e p m).threads[k]? = some .gone := by
  have stays := lasts.weaken (Nat.le_add_left n _)
  cases m with
  | raise x => exact ⟨h.cancel _, stays.raise x, fun k _ gone => gone.resolve_left nofun⟩
  | cancelInFlight =>
      exact ⟨h.cancel _, (lasts.weaken (by simp [Nat.add_comm])).advance,
        fun k _ gone => gone.resolve_left nofun⟩
  | worker j =>
      cases found : c.threads[j]? with
      | none =>
          have same : c.move e p (.worker j) = c := by simp [Crew.move, found]
          rw [same]
          refine ⟨h, stays, fun k inside => Or.rec (fun moved => ?_) id⟩
          obtain rfl := Move.worker.inj moved
          simp [inside] at found
      | some t =>
          rcases h.threads t (List.mem_of_getElem? found) with rfl | rfl
          · obtain ⟨halted, threads, same⟩ := h.ask (p := p) lasts.cancelled found
            refine ⟨halted, same ▸ stays, fun k inside gone => ?_⟩
            rw [threads, List.getElem?_set]
            split
            · simp [*]
            · next other => exact gone.resolve_left fun moved => other (Move.worker.inj moved)
          · have same : c.move e p (.worker j) = c := by
              rw [move_worker found, Thread.move, update_self found]
            rw [same]
            refine ⟨h, stays, fun k _ => Or.rec (fun moved => ?_) id⟩
            obtain rfl := Move.worker.inj moved
            exact found

/-- A call whose token is cancelled when it begins: whoever moves goes. -/
theorem Halted.moves (h : c.Halted run) (ms : List Move)
    (lasts : c.cancellation.Lasts e.token (ms.count .cancelInFlight)) :
    (c.moves e p ms).Halted run ∧
      ∀ k < c.threads.length, (.worker k ∈ ms ∨ c.threads[k]? = some .gone) →
        (c.moves e p ms).threads[k]? = some .gone := by
  induction ms generalizing c with
  | nil => exact ⟨h, fun k _ gone => gone.resolve_left List.not_mem_nil⟩
  | cons m ms ih =>
      rw [← List.singleton_append, List.count_append] at lasts
      obtain ⟨halted, lasts', gone⟩ := h.move (p := p) m lasts
      obtain ⟨ended, others⟩ := ih halted lasts'
      refine ⟨ended, fun k inside moved => others k ?_ ?_⟩
      · rwa [length_move]
      · rcases moved with mem | here
        · rcases List.mem_cons.mp mem with rfl | mem
          · exact .inr (gone k inside (.inl rfl))
          · exact .inl mem
        · exact .inr (gone k inside (.inr here))

/-- Workers that are all gone have noticed the cancellation. -/
theorem Halted.of_allGone (h : c.Halted run) (some_ : c.threads ≠ []) (gone : c.allGone = true) :
    c.run = { run with dispatch := run.dispatch.notice true }.under c.cancellation := by
  obtain ⟨t, mem⟩ := List.exists_mem_of_ne_nil _ some_
  refine h.noticed ?_
  have here := List.all_eq_true.mp gone t mem
  rcases h.threads t mem with rfl | rfl
  · contradiction
  · exact mem

end Crew

/-- By the clock, some worker asks for a node first. -/
theorem Timeline.exists_first {e : Environment} {p : Plan} {run : Run} {workers : Nat}
    (some_ : 0 < workers) (cancelled : run.resources.cancellation.isCancelled e.token = true)
    (fuel : Nat) :
    ∃ k < workers, ∃ ks : List Nat, (advance e p (fuel + 1) (begin run workers)).crew =
      (Crew.initial run workers).moves e p (.worker k :: ks.map .worker) := by
  cases next : (begin run workers).foremost? with
  | none =>
      have mem : (⟨.idle, some 0⟩ : Worker) ∈ (begin run workers).workers :=
        List.mem_replicate.mpr ⟨Nat.ne_of_gt some_, rfl⟩
      have still := moment?_eq_none next _ mem
      simp [moment?, Thread.isReady] at still
  | some first =>
      obtain ⟨time, k, w⟩ := first
      have found := (of_foremost? next).1
      obtain ⟨inside, rfl⟩ : k < workers ∧ w = ⟨.idle, some 0⟩ := by
        simpa [begin, List.getElem?_replicate, eq_comm] using found
      have there : (Crew.initial run workers).threads[k]? = some .idle := by
        simp [Crew.initial, inside]
      have moved : ((begin run workers).move e p time k ⟨.idle, some 0⟩).crew =
          (Crew.initial run workers).move e p (.worker k) := by
        rw [Crew.move_worker there, ← crew_begin]
        have asked : (begin run workers).run.next e p = _ := Run.next_of_cancelled cancelled
        have asked' : (begin run workers).crew.run.next e p = _ := Run.next_of_cancelled cancelled
        simp only [move, Thread.move, asked, asked', crew_rouse, crew_update]
        rfl
      obtain ⟨ks, same⟩ := advance_moves e p fuel ((begin run workers).move e p time k ⟨.idle, some 0⟩)
      refine ⟨k, inside, ks, ?_⟩
      rw [moved] at same
      rw [Timeline.advance, next]
      exact same

section Begun

variable {e : Environment} {p : Plan} {run : Run} {workers : Nat} {supplied : List (ValueId × Value)}
  {resources : Resources}

/-- The answer of a call that was cancelled before anything started. -/
structure Answer.CancelledAtOnce (p : Plan) (a : Answer) : Prop where
  result : a.1 = .error (.graphCancelled .cancelled none p.liveIndices.length)
  started : a.2.1.started = []
  records : a.2.1.records = []
  skipped : a.2.1.skipped = p.nodeIds p.isLive

/-- A call in which the cancellation was noticed before anything started says so. -/
theorem Run.Fresh.cancelledAtOnce (fresh : run.Fresh p) (s : Cancellation) :
    Answer.CancelledAtOnce p
      (({ run with dispatch := run.dispatch.notice true }.under s).finish p (.ok ())) := by
  have noticed : (Dispatch.initial p).notice true =
      { Dispatch.initial p with failure := some ⟨.cancelled, none⟩ } := rfl
  have all : (fun i => p.isLive i && !(Dispatch.initial p).started.contains i) = p.isLive := by
    funext i
    simp [Dispatch.initial]
  have count : (p.nodeIds p.isLive).length = p.liveIndices.length := by
    simp [Plan.nodeIds, Plan.liveIndices]
  have dispatch := fresh.dispatch
  have trace := fresh.trace
  constructor
  · simp only [Run.finish, Run.under, dispatch, noticed, all, count]
  · simp only [Run.finish, Run.under, dispatch, noticed, trace]
  · simp only [Run.finish, Run.under, dispatch, noticed, trace]
  · simp only [Run.finish, Run.under, dispatch, noticed, all]

variable (alive : p.liveIndices ≠ [])
  (cancelled : resources.cancellation.isCancelled e.token = true)
  (sound : p.Sound)
  (bound : Run.bind e p supplied p.graph.arguments.toList (Run.initial p resources) = (.ok (), run))

include alive sound bound in
/-- A call with a live node has workers. -/
theorem Plan.crew_threads_ne_nil (workers : Nat) : (Plan.crew run workers).threads ≠ [] := by
  have some_ := List.length_pos_of_ne_nil alive
  have remaining : run.dispatch.remaining = p.liveIndices.length := by
    rw [(Run.begun_of_bind sound bound).1.dispatch]
    rfl
  refine List.ne_nil_of_length_pos ?_
  simp only [Plan.crew, Crew.initial, List.length_replicate]
  omega

include cancelled sound bound in
/-- However its workers take turns, a call that begins cancelled stays as it is but for the
cancellation, and each worker that moves goes. -/
theorem Plan.halted_moves (workers : Nat) (ms : List Move)
    (few : resources.cancellation.since e.token + ms.count .cancelInFlight < 2 ^ 64) :
    ((Plan.crew run workers).moves e p ms).Halted run ∧
      ∀ k < (Plan.crew run workers).threads.length, .worker k ∈ ms →
        ((Plan.crew run workers).moves e p ms).threads[k]? = some .gone := by
  have same := (Run.begun_of_bind sound bound).2
  have lasts : (Plan.crew run workers).cancellation.Lasts e.token (ms.count .cancelInFlight) := by
    change run.resources.cancellation.Lasts e.token _
    rw [same]
    exact ⟨cancelled, few⟩
  obtain ⟨halted, gone⟩ := Crew.Halted.initial.moves (p := p) ms lasts
  exact ⟨halted, fun k inside mem => gone k inside (.inl mem)⟩

include alive cancelled sound bound in
/-- However its workers take turns, a call that begins cancelled says so and has started nothing. -/
theorem Plan.cancelled_moves (workers : Nat) (ms : List Move)
    (few : resources.cancellation.since e.token + ms.count .cancelInFlight < 2 ^ 64)
    (gone : ((Plan.crew run workers).moves e p ms).allGone = true) :
    Answer.CancelledAtOnce p (((Plan.crew run workers).moves e p ms).run.finish p (.ok ())) := by
  have some_ := Plan.crew_threads_ne_nil alive sound bound workers
  have halted := (Plan.halted_moves cancelled sound bound workers ms few).1
  have there : ((Plan.crew run workers).moves e p ms).threads ≠ [] := by
    refine List.ne_nil_of_length_pos ?_
    rw [Crew.length_moves]
    exact List.length_pos_of_ne_nil some_
  rw [halted.of_allGone there gone]
  exact (Run.begun_of_bind sound bound).1.toFresh.cancelledAtOnce _

include cancelled sound bound in
/-- All of its workers are gone as soon as each of them has moved. -/
theorem Plan.allGone_of_moves (workers : Nat) (ms : List Move)
    (few : resources.cancellation.since e.token + ms.count .cancelInFlight < 2 ^ 64)
    (moved : ∀ k < (Plan.crew run workers).threads.length, .worker k ∈ ms) :
    ((Plan.crew run workers).moves e p ms).allGone = true := by
  obtain ⟨-, gone⟩ := Plan.halted_moves cancelled sound bound workers ms few
  refine List.all_eq_true.mpr fun t mem => ?_
  obtain ⟨k, found⟩ := List.mem_iff_getElem?.mp mem
  have inside := (List.getElem?_eq_some_iff.mp found).1
  rw [Crew.length_moves] at inside
  obtain rfl := Option.some.inj (found.symm.trans (gone k inside (moved k inside)))
  rfl

include alive cancelled sound bound in
/-- So does a call by the clock. -/
theorem Plan.cancelled_execute (workers : Nat) :
    Answer.CancelledAtOnce p (p.execute e workers supplied resources) := by
  have same := (Run.begun_of_bind sound bound).2
  have some_ := List.length_pos_of_ne_nil (Plan.crew_threads_ne_nil alive sound bound workers)
  have few : resources.cancellation.since e.token < 2 ^ 64 := by
    unfold Cancellation.since
    cases e.token.epoch with
    | none => exact Nat.two_pow_pos 64
    | some epoch => exact UInt64.toNat_lt _
  obtain ⟨fuel, enough⟩ : ∃ fuel, Timeline.bound p.graph.size
      (min (max workers 1) run.dispatch.remaining) = fuel + 1 :=
    Nat.exists_eq_succ_of_ne_zero (by simp [Timeline.bound])
  obtain ⟨ks, ended, answer⟩ := Plan.execute_eq e p workers supplied resources bound
  have workers_ : 0 < min (max workers 1) run.dispatch.remaining := by
    simpa only [Plan.crew, Crew.initial, List.length_replicate] using some_
  obtain ⟨k, inside, ks', first⟩ := Timeline.exists_first (e := e) (p := p) workers_
    (same ▸ cancelled) fuel
  rw [enough] at ended
  have workersOnly : (Move.worker k :: ks'.map .worker).count .cancelInFlight = 0 :=
    List.count_eq_zero_of_not_mem (by simp)
  obtain ⟨halted, gone⟩ := Plan.halted_moves cancelled sound bound workers
    (.worker k :: ks'.map .worker) (by rwa [workersOnly])
  have here := gone k (by simpa only [Plan.crew, Crew.initial, List.length_replicate] using inside)
    List.mem_cons_self
  have noticed := halted.noticed (List.mem_of_getElem? here)
  rw [answer, ← ended, first]
  rw [Plan.crew] at noticed
  rw [noticed]
  exact (Run.begun_of_bind sound bound).1.toFresh.cancelledAtOnce _

end Begun

end HomCircuit
