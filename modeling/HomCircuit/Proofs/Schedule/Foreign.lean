import HomCircuit.Proofs.Schedule.Cancelled

/-!
# HomCircuit.Proofs.Schedule.Foreign

Cancellations that do not concern a call.

```
token of the call     raised or not       epochs since it was issued     handed over or not
everything else       does not matter
```

Two calls whose tokens stand alike go the same way under the same moves. Moves that raise the tokens of
others may be left out.

* `Cancellation.Alike` — two tokens stand alike, each under its own cancellations;
* `Move.concerns` — whether a move concerns a token;
* `Crew.moves_alike` — an interleaving without the moves that do not concern the call;
* `Plan.moves_indifferent`, `Plan.execute_indifferent` — what the call comes to is the same.
-/

namespace HomCircuit

/-! ## tokens that stand alike -/

namespace Cancellation

variable {t t' : CancelToken} {s s' : Cancellation}

/-- A token is at hand. -/
def Hands (s : Cancellation) (n : Nat) : Prop := ∃ x ∈ s.handed, x.number = n

/-- Two tokens of one number stand alike: signals and epochs that are the same for both cancel both of
them, or none. -/
structure Alike (t t' : CancelToken) (s s' : Cancellation) : Prop where
  number : t'.number = t.number
  raised : t.number ∈ s'.raised ↔ t.number ∈ s.raised
  epochs : t'.epoch.map (s'.epoch - ·) = t.epoch.map (s.epoch - ·)
  handed : s'.Hands t.number ↔ s.Hands t.number

theorem mem_raised_raiseHanded {n : Nat} :
    n ∈ s.raiseHanded.raised ↔ n ∈ s.raised ∨ s.Hands n := by
  unfold raiseHanded Hands
  cases s.handed with
  | none => simp
  | some x => simp [raise, eq_comm, or_comm]

theorem handed_raiseHanded (s : Cancellation) : s.raiseHanded.handed = s.handed := by
  unfold raiseHanded
  cases handed : s.handed <;> simp [raise, handed]

theorem epoch_raiseHanded (s : Cancellation) : s.raiseHanded.epoch = s.epoch := by
  unfold raiseHanded
  cases s.handed <;> simp [raise]

namespace Alike

theorem isCancelled (h : Alike t t' s s') : s'.isCancelled t' = s.isCancelled t := by
  have since : s'.since t' = s.since t := by
    have same := congrArg (fun o : Option UInt64 => o.elim 0 UInt64.toNat) h.epochs
    rw [Option.elim_map, Option.elim_map] at same
    exact same
  rw [Bool.eq_iff_iff, isCancelled_iff_since, isCancelled_iff_since, since, h.number, h.raised]

theorem raise (h : Alike t t' s s') (x : CancelToken) : Alike t t' (s.raise x) (s'.raise x) :=
  { h with raised := by simp only [Cancellation.raise, List.mem_cons, h.raised] }

/-- The token of another call is raised in one place only. -/
theorem raise_foreign (h : Alike t t' s s') {x : CancelToken} (foreign : x.number ≠ t.number) :
    Alike t t' (s.raise x) s' :=
  { h with raised := by simp only [Cancellation.raise, List.mem_cons, foreign.symm, false_or, h.raised] }

theorem advance (h : Alike t t' s s') : Alike t t' s.advance s'.advance where
  number := h.number
  raised := h.raised
  epochs := by
    have same := congrArg (Option.map (· + 1)) h.epochs
    simpa only [Option.map_map, Function.comp_def, Cancellation.advance, add_sub_right_comm] using same
  handed := h.handed

theorem raiseHanded (h : Alike t t' s s') : Alike t t' s.raiseHanded s'.raiseHanded where
  number := h.number
  raised := by simp only [mem_raised_raiseHanded, h.raised, h.handed]
  epochs := by simpa only [epoch_raiseHanded] using h.epochs
  handed := by simpa only [Hands, handed_raiseHanded] using h.handed

theorem obeys (signals : List Signal) (h : Alike t t' s s') :
    Alike t t' (signals.foldl obey s) (signals.foldl obey s') := by
  induction signals generalizing s s' with
  | nil => exact h
  | cons signal rest ih =>
      cases signal with
      | cancelHanded => exact ih h.raiseHanded
      | cancelInFlight => exact ih h.advance

end Alike

end Cancellation

/-- Whether a move concerns a token: the tokens of others do not. -/
def Move.concerns (t : CancelToken) : Move → Bool
  | .raise x => x.number = t.number
  | _ => true

/-! ## calls under other cancellations -/

section Under

variable {e : Environment} {p : Plan} {r : Run} {t' : CancelToken} {s' : Cancellation} {t : Thread}

/-- A worker that asks for a node is told the same. -/
theorem Run.next_alike (alike : Cancellation.Alike e.token t' r.resources.cancellation s') :
    (r.under s').next { e with token := t' } p = ((r.next e p).1, (r.next e p).2.under s') := by
  have same : (r.under s').resources.cancellation.isCancelled t' =
      r.resources.cancellation.isCancelled e.token := alike.isCancelled
  have dispatch : (r.under s').dispatch = r.dispatch := rfl
  unfold Run.next
  rw [same, dispatch]
  generalize r.dispatch.next p _ = told
  obtain ⟨turn, d⟩ := told
  cases turn <;> rfl

/-- A section of a worker does the same, and obeys the same signals. -/
theorem Thread.Blind.move_alike (blind : t.Blind)
    (alike : Cancellation.Alike e.token t' r.resources.cancellation s') :
    t.move { e with token := t' } p (r.under s') =
      ((t.move e p r).1.under ((t.signals e).foldl Cancellation.obey s'), (t.move e p r).2) := by
  match t, blind with
  | .gone, _ => rfl
  | .idle, _ =>
      simp only [Thread.move, Run.next_alike (p := p) alike]
      generalize r.next e p = told
      obtain ⟨turn, r'⟩ := told
      cases turn <;> rfl
  | .busy _ (.done ()), _ => rfl
  | .busy i (.step act next), blind =>
      simp only [Thread.move, (blind.1 s').1 r]
      rfl
  | .busy i (.await ready next), blind =>
      simp only [Thread.move, (blind.1 s').1 r]
      rfl
  | .busy i (.announce calls next), _ =>
      have announced := Run.announce_under (e := e) calls s' r
      simp only [Thread.move]
      exact congrArg (·, Thread.busy i next) announced

end Under

namespace Crew

variable {e : Environment} {p : Plan} {c : Crew} {t' : CancelToken} {s' : Cancellation}

/-- The same workers under other cancellations. -/
def under (s : Cancellation) (c : Crew) : Crew := ⟨c.run.under s, c.threads⟩

/-- A move that concerns the call does the same, and another one does nothing. -/
theorem move_alike (blind : c.Blind) (alike : Cancellation.Alike e.token t' c.cancellation s')
    (m : Move) :
    ∃ s'', Cancellation.Alike e.token t' (c.move e p m).cancellation s'' ∧
      (c.move e p m).under s'' =
        if m.concerns e.token then (c.under s').move { e with token := t' } p m else c.under s' := by
  cases m with
  | raise x =>
      by_cases own : x.number = e.token.number
      · exact ⟨_, alike.raise x, by simp only [Move.concerns, own, decide_true, if_true]; rfl⟩
      · exact ⟨s', alike.raise_foreign own, by simp only [Move.concerns, own]; rfl⟩
  | cancelInFlight => exact ⟨_, alike.advance, rfl⟩
  | worker k =>
      simp only [Move.concerns, if_true]
      cases found : c.threads[k]? with
      | none =>
          have same : c.move e p (.worker k) = c := by simp [Crew.move, found]
          have same' : (c.under s').move { e with token := t' } p (.worker k) = c.under s' := by
            simp [Crew.move, under, found]
          rw [same, same']
          exact ⟨s', alike, rfl⟩
      | some t =>
          have quiet := blind t (List.mem_of_getElem? found)
          have found' : (c.under s').threads[k]? = some t := found
          rw [move_worker found, move_worker found']
          refine ⟨(t.signals e).foldl Cancellation.obey s', ?_, ?_⟩
          · have changed := quiet.cancellation_move (e := e) (p := p) (r := c.run)
            simp only [cancellation, update, changed]
            exact alike.obeys _
          · have moved := quiet.move_alike (p := p) alike
            change _ = (c.under s').update k (t.move { e with token := t' } p (c.run.under s')).1
              (t.move { e with token := t' } p (c.run.under s')).2
            rw [moved]
            rfl

/-- An interleaving without the moves that do not concern the call leads to the same. -/
theorem moves_alike (blind : c.Blind) (alike : Cancellation.Alike e.token t' c.cancellation s')
    (ms : List Move) :
    ∃ s'', (c.under s').moves { e with token := t' } p (ms.filter (Move.concerns e.token)) =
      (c.moves e p ms).under s'' := by
  induction ms generalizing c s' with
  | nil => exact ⟨s', rfl⟩
  | cons m ms ih =>
      obtain ⟨s'', alike', same⟩ := move_alike (p := p) blind alike m
      obtain ⟨last, ended⟩ := ih (blind.move m) alike'
      refine ⟨last, ?_⟩
      rw [same] at ended
      rw [List.filter_cons]
      split
      · next concerns =>
          rw [if_pos concerns] at ended
          exact ended
      · next foreign =>
          rw [if_neg foreign] at ended
          exact ended

end Crew

/-! ## the clock -/

namespace Timeline

variable {e : Environment} {p : Plan} {t : Timeline} {t' : CancelToken} {s' : Cancellation}

/-- The same workers and their clocks under other cancellations. -/
def under (s : Cancellation) (t : Timeline) : Timeline := { t with run := t.run.under s }

/-- No worker is about to look at cancellations, unless it asks for a node. -/
def Blind (t : Timeline) : Prop := ∀ w ∈ t.workers, w.thread.Blind

/-- The sections of a job up to where it stops are the same, and take as long. -/
theorem stretch_alike {i : Nat} (job : Job Run Unit) {r : Run} (blind : (Thread.busy i job).Blind)
    (alike : Cancellation.Alike e.token t' r.resources.cancellation s') :
    (Thread.busy i (stretch e job r).2.1).Blind ∧
      ∃ s'', Cancellation.Alike e.token t' (stretch e job r).2.2.resources.cancellation s'' ∧
        stretch { e with token := t' } job (r.under s') =
          ((stretch e job r).1, (stretch e job r).2.1, (stretch e job r).2.2.under s'') := by
  induction job generalizing r s' with
  | done a => exact ⟨blind, s', alike, rfl⟩
  | step act next ih =>
      have later : (Thread.busy i (next (act r).1)).Blind := blind.move (p := default) (e := e)
      have same : (act r).2.resources.cancellation = r.resources.cancellation :=
        blind.cancellation_move (p := default) (e := e)
      have seen := (blind.1 s').1 r
      simp only [stretch, seen]
      exact ih _ later (same ▸ alike)
  | await ready next ih =>
      have seen := (blind.1 s').1 r
      simp only [stretch, seen]
      split
      · exact ih ⟨fun s => (blind.1 s).2, blind.2⟩ alike
      · exact ⟨blind, s', alike, rfl⟩
  | announce calls next ih =>
      have changed : (r.announce e calls).resources.cancellation =
          (calls.flatMap fun c => e.primitives.signals c.op).foldl Cancellation.obey
            r.resources.cancellation := blind.cancellation_move (p := default)
      have alike' : Cancellation.Alike e.token t' (r.announce e calls).resources.cancellation
          ((calls.flatMap fun c => e.primitives.signals c.op).foldl Cancellation.obey s') :=
        changed ▸ alike.obeys _
      have seen : (r.under s').announce { e with token := t' } calls = _ :=
        Run.announce_under (e := e) calls s' r
      have pause : ({ e with token := t' } : Environment).duration calls = e.duration calls := rfl
      simp only [stretch, seen, pause]
      cases e.duration calls with
      | zero => exact ih blind alike'
      | succ n => exact ⟨blind, _, alike', rfl⟩

/-- A worker that is blind may move whenever it might under other cancellations. -/
theorem foremost?_under (blind : t.Blind) (s : Cancellation) : (t.under s).foremost? = t.foremost? := by
  have same : ∀ w ∈ t.workers, (t.under s).moment? w = t.moment? w := by
    intro w mem
    have ready : w.thread.isReady (t.under s).run = w.thread.isReady t.run := by
      have here := blind w mem
      cases thread : w.thread with
      | idle => rfl
      | gone => rfl
      | busy i job =>
          rw [thread] at here
          cases job with
          | done a => rfl
          | step act next => rfl
          | await ready next => exact (here.1 s).1 t.run
          | announce calls next => rfl
    unfold moment?
    rw [ready]
    rfl
  refine List.foldl_ext _ _ none fun best entry mem => ?_
  change (t.under s).earlier best entry = t.earlier best entry
  unfold earlier
  rw [same entry.1 (List.fst_mem_of_mem_zipIdx mem)]

theorem Blind.update (blind : t.Blind) (k : Nat) {thread : Thread} (own : thread.Blind)
    (due : Option Nat) (run : Run) : (t.update k ⟨thread, due⟩ run).Blind := by
  intro w' mem
  rcases List.mem_or_eq_of_mem_set mem with old | rfl
  · exact blind w' old
  · exact own

theorem Blind.rouse (blind : t.Blind) (time : Nat) : (t.rouse time).Blind := by
  intro w' mem
  obtain ⟨w, old, rfl⟩ := List.mem_map.mp mem
  have same : (w.rouse time).thread = w.thread := by
    unfold Worker.rouse
    split <;> rfl
  rw [same]
  exact blind w old

/-- A worker does the same by the clock. -/
theorem move_alike (blind : t.Blind)
    (alike : Cancellation.Alike e.token t' t.run.resources.cancellation s') (time k : Nat) {w : Worker}
    (found : t.workers[k]? = some w) :
    (t.move e p time k w).Blind ∧
      ∃ s'', Cancellation.Alike e.token t' (t.move e p time k w).run.resources.cancellation s'' ∧
        (t.under s').move { e with token := t' } p time k w = (t.move e p time k w).under s'' := by
  have own := blind w (List.mem_of_getElem? found)
  have idle : Thread.Blind .idle := trivial
  have gone : Thread.Blind .gone := trivial
  obtain ⟨thread, due⟩ := w
  cases thread with
  | gone => exact ⟨blind, s', alike, rfl⟩
  | idle =>
      have told : (t.under s').run.next { e with token := t' } p = _ := Run.next_alike (p := p) alike
      have resources := t.run.resources_next (e := e) (p := p)
      have cancellation := congrArg Resources.cancellation resources
      simp only [move, told]
      generalize t.run.next e p = asked at cancellation ⊢
      obtain ⟨turn, run⟩ := asked
      have alike' : Cancellation.Alike e.token t' run.resources.cancellation s' :=
        cancellation ▸ alike
      cases turn with
      | start i =>
          have runs : (Thread.busy i (nodeJob e p i)).Blind :=
            ⟨fun s => blind_nodeJob i, startsNone_nodeJob i⟩
          exact ⟨blind.update k runs _ run, s', alike', rfl⟩
      | wait => exact ⟨blind.update k idle _ run, s', alike', rfl⟩
      | stop => exact ⟨(blind.update k gone _ run).rouse time, s', alike', rfl⟩
  | busy i job =>
      obtain ⟨rest, s'', alike', same⟩ := stretch_alike job own alike
      have same' : stretch { e with token := t' } job (t.under s').run = _ := same
      simp only [move, same']
      generalize stretch e job t.run = after at rest alike' ⊢
      obtain ⟨pause, left, run⟩ := after
      cases left with
      | done a => exact ⟨(blind.update k idle _ run).rouse time, s'', alike', rfl⟩
      | step act next => exact ⟨(blind.update k rest _ run).rouse _, s'', alike', rfl⟩
      | await ready next => exact ⟨(blind.update k rest _ run).rouse _, s'', alike', rfl⟩
      | announce calls next => exact ⟨(blind.update k rest _ run).rouse _, s'', alike', rfl⟩

/-- So do all workers. -/
theorem advance_alike (blind : t.Blind)
    (alike : Cancellation.Alike e.token t' t.run.resources.cancellation s') (fuel : Nat) :
    ∃ s'', (t.under s').advance { e with token := t' } p fuel = (t.advance e p fuel).under s'' := by
  induction fuel generalizing t s' with
  | zero => exact ⟨s', rfl⟩
  | succ fuel ih =>
      simp only [advance, foremost?_under blind]
      cases next : t.foremost? with
      | none => exact ⟨s', rfl⟩
      | some first =>
          obtain ⟨time, k, w⟩ := first
          obtain ⟨blind', s'', alike', same⟩ :=
            move_alike (p := p) blind alike time k (of_foremost? next).1
          simp only [same]
          exact ih blind' alike'

end Timeline

/-! ## the beginning and the end of a call -/

section Ends

variable {e : Environment} {p : Plan} {supplied : List (ValueId × Value)} {t' : CancelToken}
  {s : Cancellation}

theorem Run.bind_under (arguments : List (ValueId × PartitionId)) (r : Run) :
    Run.bind { e with token := t' } p supplied arguments (r.under s) =
      ((Run.bind e p supplied arguments r).1, (Run.bind e p supplied arguments r).2.under s) := by
  induction arguments generalizing r with
  | nil => rfl
  | cons a rest ih =>
      obtain ⟨value, partition⟩ := a
      have same : Run.argument { e with token := t' } supplied value partition =
          Run.argument e supplied value partition := rfl
      simp only [Run.bind, same]
      cases p.graph.slot? value with
      | none => rfl
      | some slot =>
          dsimp only
          split
          · exact ih r
          · cases Run.argument e supplied value partition with
            | error err => rfl
            | ok b => exact ih { r with arena := (r.arena.store slot b).2 }

theorem Run.collect_under (requested : List (ValueId × Nat)) (r : Run) :
    Run.collect requested (r.under s) =
      ((Run.collect requested r).1, (Run.collect requested r).2.under s) := by
  induction requested generalizing r with
  | nil => rfl
  | cons q rest ih =>
      obtain ⟨value, slot⟩ := q
      have arena : (r.under s).arena = r.arena := rfl
      simp only [Run.collect, arena]
      obtain ⟨taken, arena'⟩ := r.arena.take slot
      cases taken with
      | none => rfl
      | some b =>
          have copied : (r.under s).resources.toHost b = _ := r.resources.toHost_under s b
          simp only [copied]
          generalize r.resources.toHost b = host
          obtain ⟨result, resources⟩ := host
          cases result with
          | error err => rfl
          | ok v =>
              have others := ih { r with arena := arena', resources := resources.drop [b] }
              have dropped : ({ r.under s with
                  arena := arena', resources := (resources.under s).drop [b] } : Run) =
                  ({ r with arena := arena', resources := resources.drop [b] } : Run).under s := rfl
              simp only [dropped, others]

theorem Run.finish_under (bound : Except RunError Unit) (r : Run) :
    (r.under s).finish p bound =
      ((r.finish p bound).1, (r.finish p bound).2.1, (r.finish p bound).2.2.under s) := by
  have dispatch : (r.under s).dispatch = r.dispatch := rfl
  simp only [Run.finish, dispatch]
  cases bound with
  | error err => rfl
  | ok u =>
      cases r.dispatch.failure with
      | some failure => rfl
      | none =>
          simp only [Run.collect_under]
          rfl

end Ends

/-! ## calls -/

section Calls

variable {e : Environment} {p : Plan} {supplied : List (ValueId × Value)} {resources : Resources}
  {t' : CancelToken} {s' : Cancellation}

/-- Two calls answer the same and leave the same trace. -/
structure Answer.Same (a a' : Answer) : Prop where
  result : a'.1 = a.1
  trace : a'.2.1 = a.2.1

/-- The end of a call under other cancellations. -/
theorem Run.same_finish {r r' : Run} (bound : Except RunError Unit) (under : r' = r.under s') :
    Answer.Same (r.finish p bound) (r'.finish p bound) := by
  rw [under, Run.finish_under]
  exact ⟨rfl, rfl⟩

/-- What a call comes to in an interleaving does not depend on cancellations that do not concern it. -/
theorem Plan.moves_indifferent
    (alike : Cancellation.Alike e.token t' resources.cancellation s') :
    let e' := { e with token := t' }
    let start := Run.bind e p supplied p.graph.arguments.toList (Run.initial p resources)
    let start' := Run.bind e' p supplied p.graph.arguments.toList (Run.initial p (resources.under s'))
    start'.1 = start.1 ∧
    ∀ (workers : Nat) (ms : List Move),
      let ended := (Plan.crew start.2 workers).moves e p ms
      let ended' := (Plan.crew start'.2 workers).moves e' p (ms.filter (Move.concerns e.token))
      ended'.allGone = ended.allGone ∧
        Answer.Same (ended.run.finish p (.ok ())) (ended'.run.finish p (.ok ())) := by
  intro e' start start'
  have begun : start' = (start.1, start.2.under s') :=
    Run.bind_under p.graph.arguments.toList (Run.initial p resources)
  have kept : start.2.resources = resources :=
    Run.resources_bind supplied p.graph.arguments.toList (Run.initial p resources)
  rw [begun]
  refine ⟨rfl, fun workers ms => ?_⟩
  have alike' : Cancellation.Alike e.token t' (Plan.crew start.2 workers).cancellation s' := by
    change Cancellation.Alike e.token t' start.2.resources.cancellation s'
    rwa [kept]
  obtain ⟨last, ended⟩ := Crew.moves_alike (p := p) Crew.Blind.initial alike' ms
  have gone := congrArg Crew.allGone ended
  have whole := congrArg Crew.run ended
  exact ⟨gone, Run.same_finish (.ok ()) whole⟩

/-- Nor does what a call by the clock comes to. -/
theorem Plan.execute_indifferent
    (alike : Cancellation.Alike e.token t' resources.cancellation s') (workers : Nat) :
    Answer.Same (p.execute e workers supplied resources)
      (p.execute { e with token := t' } workers supplied (resources.under s')) := by
  have begun : Run.bind { e with token := t' } p supplied p.graph.arguments.toList
      (Run.initial p (resources.under s')) = _ :=
    Run.bind_under p.graph.arguments.toList (Run.initial p resources)
  have kept := Run.resources_bind (e := e) (p := p) supplied p.graph.arguments.toList
    (Run.initial p resources)
  unfold Plan.execute
  rw [begun]
  generalize Run.bind e p supplied p.graph.arguments.toList (Run.initial p resources) = r at kept ⊢
  obtain ⟨bound, run⟩ := r
  cases bound with
  | error err => exact Run.same_finish _ rfl
  | ok u =>
      have alike' : Cancellation.Alike e.token t' run.resources.cancellation s' := by
        rw [kept]
        exact alike
      have blind : (Timeline.begin run (min (max workers 1) run.dispatch.remaining)).Blind := by
        intro w mem
        obtain ⟨-, rfl⟩ := List.mem_replicate.mp mem
        exact trivial
      obtain ⟨last, ended⟩ := Timeline.advance_alike (p := p) blind alike'
        (Timeline.bound p.graph.size (min (max workers 1) run.dispatch.remaining))
      have whole : _ = Run.under last _ := congrArg Timeline.run ended
      exact Run.same_finish (.ok ()) whole

end Calls

end HomCircuit
