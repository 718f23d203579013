import HomCircuit.Proofs.Schedule.Lifetime

/-!
# HomCircuit.Proofs.Schedule.Chronicle

The workers of a call with the history of what they do.

```
idle  →  performing i  →  retiring i  →  leaving i  →  idle            idle  →  gone
         started i        released       settled i
```

A chronicle moves as its crew does, and writes down what happens: what a section does to the state and to
the history is told by where its worker is.

* `Station` — where a worker is, with what is left of its node;
* `Chronicle` — the state of a call, its workers and its history; `Chronicle.crew_moves` — its workers
  are a crew;
* `Chronicle.Valid` — every interleaving is a course of the call, whose nodes ran as told;
* `Plan.valid_chronicle` — the chronicle of a call, however its workers take turns;
* `Plan.settled_of_ensures` — what every run of a node ensures holds of all nodes that are settled.
-/

namespace HomCircuit

/-- Where a worker is, with what is left of its node. -/
inductive Station : Type 1
  | idle
  | performing (i : Nat) (job : Job Run Performed)
  /-- The node has run; some reads are still to be ended, and then it is settled. -/
  | retiring (i : Nat) (owed : List Nat) (done : Performed)
  | leaving (i : Nat)
  | gone

namespace Station

/-- The nodes that a worker has in hand. -/
def hands : Station → List Nat
  | .performing i _ => [i]
  | .retiring i _ _ => [i]
  | _ => []

/-- The reads that a worker owes. -/
def owed (g : Graph) : Station → List Nat
  | .performing i _ => g.inputsOf i
  | .retiring _ owed _ => owed
  | _ => []

/-- What a worker at a station is doing. -/
def thread (p : Plan) : Station → Thread
  | .idle => .idle
  | .performing i job => .busy i (job >>= retire p i)
  | .retiring i owed done => .busy i (releaseAll owed >>= fun _ => Job.change (Run.complete p i done))
  | .leaving i => .busy i (.done ())
  | .gone => .gone

/-- A worker that retires a node ends a read, or settles the node when no read is left. -/
def retire (p : Plan) (r : Run) (i : Nat) (done : Performed) : List Nat → Run × Station × History
  | [] => (r.complete p i done, .leaving i, [.settled i done])
  | slot :: rest => (r.release slot, .retiring i rest done, [.released slot])

/-- One section of a worker: the state after it, where the worker is then, and what happened. -/
def move (e : Environment) (p : Plan) (r : Run) : Station → Run × Station × History
  | .gone => (r, .gone, [])
  | .idle =>
    match r.next e p with
    | (.start i, r') => (r', .performing i (perform e p i), [.started i])
    | (.wait, r') => (r', .idle, [])
    | (.stop, r') =>
      let noticed := r.dispatch.failure.isNone && r.resources.cancellation.isCancelled e.token
      (r', .gone, if noticed then [.cancelled] else [])
  | .performing i (.done done) => retire p r i done (p.graph.inputsOf i)
  | .performing i (.step act next) => ((act r).2, .performing i (next (act r).1), [])
  | .performing i (.await ready next) =>
    (r, .performing i (if ready r then next else .await ready next), [])
  | .performing i (.announce calls next) => (r.announce e calls, .performing i next, [])
  | .retiring i owed done => retire p r i done owed
  | .leaving _ => (r, .idle, [])

variable {e : Environment} {p : Plan} {r : Run}

/-- A worker at a station moves as its thread does. -/
theorem thread_move (s : Station) :
    (s.thread p).move e p r = ((s.move e p r).1, (s.move e p r).2.1.thread p) := by
  have retiring (i : Nat) (done : Performed) (owed : List Nat) :
      (thread p (.retiring i owed done)).move e p r =
        ((retire p r i done owed).1, (retire p r i done owed).2.1.thread p) := by
    cases owed <;> rfl
  match s with
  | .gone => rfl
  | .idle =>
      simp only [thread, Thread.move, move]
      split <;> simp_all [thread, nodeJob]
  | .performing i (.done done) => exact retiring i done (p.graph.inputsOf i)
  | .performing i (.step act next) => rfl
  | .performing i (.await ready next) =>
      change (r, if ready r = true then Thread.busy i (next >>= HomCircuit.retire p i)
        else .busy i (Job.await ready next >>= HomCircuit.retire p i)) =
        (r, thread p (.performing i (if ready r then next else .await ready next)))
      split <;> rfl
  | .performing i (.announce calls next) => rfl
  | .retiring i owed done => exact retiring i done owed
  | .leaving i => rfl

end Station

/-- The state of a call, its workers, and its history. -/
structure Chronicle : Type 1 where
  run : Run
  stations : List Station
  history : History

namespace Chronicle

variable (e : Environment) (p : Plan)

/-- Workers that are all idle. -/
def initial (run : Run) (workers : Nat) : Chronicle := ⟨run, List.replicate workers .idle, []⟩

/-- A worker has moved. -/
def update (c : Chronicle) (k : Nat) (after : Run × Station × History) : Chronicle :=
  ⟨after.1, c.stations.set k after.2.1, c.history ++ after.2.2⟩

/-- Somebody cancels. -/
def cancel (c : Chronicle) (f : Cancellation → Cancellation) : Chronicle :=
  { c with run := { c.run with resources := c.run.resources.withCancellation f } }

/-- One move. -/
def move (c : Chronicle) : Move → Chronicle
  | .worker k => (c.stations[k]?).elim c fun s => c.update k (s.move e p c.run)
  | .raise t => c.cancel (·.raise t)
  | .cancelInFlight => c.cancel Cancellation.advance

/-- An interleaving. -/
def moves (c : Chronicle) (ms : List Move) : Chronicle := ms.foldl (move e p) c

/-- The workers of a call, without the history. -/
def crew (c : Chronicle) : Crew := ⟨c.run, c.stations.map (Station.thread p)⟩

variable {e p}

/-- A chronicle moves as its crew does. -/
theorem crew_move (c : Chronicle) (m : Move) : (c.move e p m).crew p = (c.crew p).move e p m := by
  cases m with
  | worker k =>
      have threads : (c.crew p).threads[k]? = (c.stations[k]?).map (Station.thread p) :=
        List.getElem?_map
      cases found : c.stations[k]? with
      | none =>
          rw [found] at threads
          simp only [move, Crew.move, found, threads, Option.map_none, Option.elim_none]
      | some s =>
          rw [found] at threads
          have run : (c.crew p).run = c.run := rfl
          simp only [move, Crew.move, found, threads, Option.map_some, Option.elim_some]
          rw [Crew.advance_eq e p threads, run, s.thread_move]
          simp only [crew, update, Crew.update, List.map_set]
  | raise t => rfl
  | cancelInFlight => rfl

/-- The workers of a chronicle are a crew, however they take turns. -/
theorem crew_moves (c : Chronicle) (ms : List Move) :
    (c.moves e p ms).crew p = (c.crew p).moves e p ms := by
  induction ms generalizing c with
  | nil => rfl
  | cons m rest ih =>
      refine (ih (c.move e p m)).trans ?_
      rw [crew_move]
      rfl

/-- What is written down is not changed any more. -/
theorem history_move (c : Chronicle) (m : Move) :
    ∃ later, (c.move e p m).history = c.history ++ later := by
  cases m with
  | worker k =>
      cases found : c.stations[k]? with
      | none => exact ⟨[], by simp [move, found]⟩
      | some s => exact ⟨(s.move e p c.run).2.2, by simp [move, found, update]⟩
  | raise t => exact ⟨[], (List.append_nil _).symm⟩
  | cancelInFlight => exact ⟨[], (List.append_nil _).symm⟩

theorem history_moves (c : Chronicle) (ms : List Move) :
    ∃ later, (c.moves e p ms).history = c.history ++ later := by
  induction ms generalizing c with
  | nil => exact ⟨[], (List.append_nil _).symm⟩
  | cons m rest ih =>
      obtain ⟨first, moved⟩ := history_move (e := e) (p := p) c m
      obtain ⟨later, done⟩ := ih (c.move e p m)
      exact ⟨first ++ later, by rw [← List.append_assoc, ← moved]; exact done⟩

/-- A worker writes down a cancellation only when it finds the token cancelled. -/
theorem cancelled_of_move {r : Run} {s : Station} (mem : .cancelled ∈ (s.move e p r).2.2) :
    r.resources.cancellation.isCancelled e.token = true := by
  have retiring (i : Nat) (done : Performed) (owed : List Nat) :
      .cancelled ∉ (Station.retire p r i done owed).2.2 := by
    cases owed <;> simp [Station.retire]
  cases s with
  | idle =>
      simp only [Station.move] at mem
      split at mem
      · simp at mem
      · contradiction
      · next noticed =>
        split at mem
        · next cancelled => exact (Bool.and_eq_true_iff.mp cancelled).2
        · contradiction
  | performing i job =>
      cases job with
      | done done => exact absurd mem (retiring i done (p.graph.inputsOf i))
      | _ => contradiction
  | retiring i owed done => exact absurd mem (retiring i done owed)
  | _ => contradiction

/-- A cancellation is written down only if the token was cancelled at some moment. -/
theorem cancelled_of_moves {c : Chronicle} {ms : List Move} (begun : .cancelled ∉ c.history)
    (mem : .cancelled ∈ (c.moves e p ms).history) :
    ∃ before, before <+: ms ∧
      (c.moves e p before).run.resources.cancellation.isCancelled e.token = true := by
  induction ms generalizing c with
  | nil => exact absurd mem begun
  | cons m rest ih =>
      by_cases moved : .cancelled ∈ (c.move e p m).history
      · refine ⟨[], List.nil_prefix, ?_⟩
        cases m with
        | worker k =>
            simp only [move] at moved
            cases found : c.stations[k]? with
            | none =>
                rw [found] at moved
                exact absurd moved begun
            | some s =>
                rw [found] at moved
                exact cancelled_of_move ((List.mem_append.mp moved).resolve_left begun)
        | raise t => exact absurd moved begun
        | cancelInFlight => exact absurd moved begun
      · obtain ⟨before, early, cancelled⟩ := ih moved mem
        exact ⟨m :: before, List.cons_prefix_cons.mpr ⟨rfl, early⟩, cancelled⟩

end Chronicle

/-- The chronicle of a call whose arguments are in place, after some interleaving. -/
def Plan.chronicle (p : Plan) (e : Environment) (run : Run) (workers : Nat) (ms : List Move) :
    Chronicle :=
  (Chronicle.initial run (min (max workers 1) run.dispatch.remaining)).moves e p ms

/-- The chronicle of a call is that of its workers. -/
theorem Plan.crew_chronicle (p : Plan) (e : Environment) (run : Run) (workers : Nat)
    (ms : List Move) : (p.chronicle e run workers ms).crew p = (Plan.crew run workers).moves e p ms := by
  unfold Plan.chronicle
  rw [Chronicle.crew_moves]
  simp [Chronicle.crew, Chronicle.initial, Plan.crew, Crew.initial, Station.thread]

theorem Plan.chronicle_append (p : Plan) (e : Environment) (run : Run) (workers : Nat)
    (ms ms' : List Move) :
    p.chronicle e run workers (ms ++ ms') = (p.chronicle e run workers ms).moves e p ms' :=
  List.foldl_append

/-! ## every interleaving is a course -/

/-- What a worker at a station has in store: how often its node has counted a fallback, and what the node
still guarantees. -/
def Station.At (p : Plan) (own : Nat) : Station → Prop
  | .performing i job =>
    job.Tracks (fun _ => Run.Furnished p.graph i) Run.Accrues (fun own done => done.Tells p i own) own
  | .retiring i _ done => done.Tells p i own
  | _ => own = 0

/-- What a section of a worker leads to, while the others have some nodes in hand and owe some reads:
the call goes its course, the worker is where it should be, and what it has counted is on record once
its node is settled. -/
structure Station.LeadsTo (p : Plan) (begun r : Run) (es : History) (hands owed : List Nat)
    (own : Nat) (after : Run × Station × History) (own' : Nat) : Prop where
  at_ : after.2.1.At p own'
  course : Course p begun after.1 (es ++ after.2.2) (after.2.1.hands ++ hands)
    (after.2.1.owed p.graph ++ owed)
  fallbacks : ∀ n, r.resources.fallbacks? = some (n + own) →
    after.1.resources.fallbacks? = some (n + own' + after.2.2.records.countP (·.fellBack))
  spares : ∀ s ∈ after.2.2.settled, ∀ err, s.2.result = .error err → err.SparesGraph

section Move

variable {e : Environment} {p : Plan} {begun r : Run} {es : History} {hands owed : List Nat}
  {i own : Nat}

/-- A section in which nothing happens. -/
theorem Station.LeadsTo.silent {s : Station} {r' : Run} {own' : Nat} (at_ : s.At p own')
    (course : Course p begun r' es (s.hands ++ hands) (s.owed p.graph ++ owed))
    (fallbacks : ∀ n, r.resources.fallbacks? = some (n + own) →
      r'.resources.fallbacks? = some (n + own')) :
    Station.LeadsTo p begun r es hands owed own (r', s, []) own' where
  at_
  course := by simpa using course
  fallbacks := fallbacks
  spares := nofun

/-- A worker that retires a node. -/
theorem Station.retire_leadsTo {done : Performed} {reads : List Nat} (tells : done.Tells p i own)
    (course : Course p begun r es (i :: hands) (reads ++ owed)) :
    ∃ own', Station.LeadsTo p begun r es hands owed own (Station.retire p r i done reads) own' := by
  cases reads with
  | nil =>
      obtain ⟨named, counted, spares⟩ := tells
      have kept : (r.complete p i done).resources.fallbacks? = r.resources.fallbacks? := by
        unfold Run.complete
        cases done.result with
        | error err => rfl
        | ok b =>
            dsimp only
            split <;> exact Resources.fallbacks?_drop _ _
      refine ⟨0, rfl, course.settle named, fun n before => ?_, ?_⟩
      · refine kept.trans (before.trans ?_)
        simp [Station.retire, History.records, History.settled, Event.settlement?, counted,
          List.countP_singleton]
      · simpa [Station.retire, History.settled, Event.settlement?] using spares
  | cons slot rest =>
      refine ⟨own, tells, course.release, fun n before => ?_, ?_⟩
      · exact (Resources.fallbacks?_drop _ _).trans before
      · simp [Station.retire, History.settled, Event.settlement?]

/-- An idle worker asks for a node. -/
theorem Station.idle_leadsTo (course : Course p begun r es hands owed) :
    ∃ own', Station.LeadsTo p begun r es hands owed 0 (Station.idle.move e p r) own' := by
  simp only [Station.move, Run.next]
  generalize r.resources.cancellation.isCancelled e.token = cancelled
  rcases Dispatch.next_cases p r.dispatch cancelled with
    ⟨told, -⟩ | ⟨healthy, more, ⟨i, d', found, told⟩ | ⟨-, told⟩⟩
  · rw [told]
    dsimp only
    split
    · next noticed =>
        obtain ⟨healthy, rfl⟩ : r.dispatch.failure = none ∧ cancelled = true := by
          simpa using noticed
        refine ⟨0, rfl, course.cancel healthy, fun n => id, ?_⟩
        simp [History.settled, Event.settlement?]
    · next unnoticed =>
        have same : r.dispatch.notice cancelled = r.dispatch := if_neg unnoticed
        rw [same]
        exact ⟨0, .silent rfl course fun _ => id⟩
  · rw [told]
    refine ⟨0, (tracks_perform i), course.start healthy found, fun n => id, ?_⟩
    simp [History.settled, Event.settlement?]
  · rw [told]
    exact ⟨0, .silent rfl course fun _ => id⟩

/-- Every section of a worker keeps the course. -/
theorem Station.At.move (sound : p.Sound) (h : begun.Begun p) {s : Station} (here : s.At p own)
    (course : Course p begun r es (s.hands ++ hands) (s.owed p.graph ++ owed)) :
    ∃ own', Station.LeadsTo p begun r es hands owed own (s.move e p r) own' := by
  match s, here, course with
  | .gone, here, course => exact ⟨own, .silent here course fun _ => id⟩
  | .idle, here, course =>
      obtain rfl : own = 0 := here
      exact Station.idle_leadsTo course
  | .performing i (.done done), here, course => exact Station.retire_leadsTo here course
  | .performing i (.step act next), here, course =>
      have furnished := course.furnished sound h List.mem_cons_self
        fun slot read => List.mem_append_left _ read
      obtain ⟨own', ⟨confined, counted⟩, next'⟩ := here r furnished
      refine ⟨own', .silent next' ?_ counted⟩
      rw [confined]
      exact course.work _
  | .performing i (.await ready next), here, course =>
      refine ⟨own, .silent ?_ course fun _ => id⟩
      split <;> exact here
  | .performing i (.announce calls next), here, course =>
      refine ⟨own, .silent here (course.work _) fun n before => ?_⟩
      exact (Resources.fallbacks?_announce _ _ _).trans before
  | .retiring i reads done, here, course => exact Station.retire_leadsTo here course
  | .leaving i, here, course => exact ⟨own, .silent here course fun _ => id⟩

end Move

/-- What holds of a chronicle: its workers are where they should be, with what they have counted, and its
state is on the course of the call with its history. -/
structure Chronicle.Manned (p : Plan) (begun : Run) (c : Chronicle) (posts : List (Station × Nat)) :
    Prop where
  stations : posts.map Prod.fst = c.stations
  at_ : ∀ x ∈ posts, x.1.At p x.2
  course : Course p begun c.run c.history (c.stations.flatMap Station.hands)
    (c.stations.flatMap (Station.owed p.graph))
  /-- All fallbacks are on record, or counted by a worker whose node is not settled. -/
  fallbacks : ∀ n, begun.resources.fallbacks? = some n → c.run.resources.fallbacks? =
    some (n + c.history.records.countP (·.fellBack) + (posts.map Prod.snd).sum)
  spares : ∀ s ∈ c.history.settled, ∀ err, s.2.result = .error err → err.SparesGraph

/-- A chronicle of a call that began in some state. -/
def Chronicle.Valid (p : Plan) (begun : Run) (c : Chronicle) : Prop :=
  ∃ posts, c.Manned p begun posts

namespace Chronicle

variable {e : Environment} {p : Plan} {begun : Run} {c : Chronicle}

theorem Valid.initial (workers : Nat) :
    (Chronicle.initial begun workers).Valid p begun := by
  refine ⟨List.replicate workers (.idle, 0), ?_, ?_, ?_, ?_, ?_⟩
  · simp [Chronicle.initial]
  · intro x mem
    obtain ⟨-, rfl⟩ := List.mem_replicate.mp mem
    rfl
  · have hands : (List.replicate workers Station.idle).flatMap Station.hands = [] :=
      List.flatMap_eq_nil_iff.mpr fun s mem => by rw [(List.mem_replicate.mp mem).2]; rfl
    have owed : (List.replicate workers Station.idle).flatMap (Station.owed p.graph) = [] :=
      List.flatMap_eq_nil_iff.mpr fun s mem => by rw [(List.mem_replicate.mp mem).2]; rfl
    simp only [Chronicle.initial, hands, owed]
    exact .begin
  · intro n before
    simpa [Chronicle.initial, History.records, History.settled] using before
  · simp [Chronicle.initial, History.settled]

/-- A section of a worker concerns its own part alone. -/
theorem Valid.worker (sound : p.Sound) (h : begun.Begun p) (v : c.Valid p begun) (k : Nat) :
    (c.move e p (.worker k)).Valid p begun := by
  obtain ⟨posts, m⟩ := v
  simp only [Chronicle.move]
  cases found : c.stations[k]? with
  | none => exact ⟨posts, m⟩
  | some s =>
      have post : (posts[k]?).map Prod.fst = some s := by
        rw [← List.getElem?_map, m.stations, found]
      obtain ⟨⟨s', own⟩, foundPost, rfl⟩ := Option.map_eq_some_iff.mp post
      have course := m.course.arrange (perm_flatMap_eraseIdx Station.hands found)
        (perm_flatMap_eraseIdx (Station.owed p.graph) found)
      obtain ⟨own', leads⟩ :=
        (m.at_ _ (List.mem_of_getElem? foundPost)).move (e := e) sound h course
      obtain ⟨inside, -⟩ := List.getElem?_eq_some_iff.mp found
      obtain ⟨insidePost, -⟩ := List.getElem?_eq_some_iff.mp foundPost
      simp only [Option.elim_some]
      refine ⟨posts.set k ((s'.move e p c.run).2.1, own'), ?_, ?_, ?_, ?_, ?_⟩
      · rw [List.map_set, m.stations]
        rfl
      · intro x mem
        rcases List.mem_or_eq_of_mem_set mem with old | rfl
        · exact m.at_ x old
        · exact leads.at_
      · exact leads.course.arrange (perm_flatMap_set _ inside _) (perm_flatMap_set _ inside _)
      · intro n before
        have counted := m.fallbacks n before
        have whole := ((List.getElem_cons_eraseIdx_perm insidePost).map Prod.snd).sum_eq
        have whole' := ((List.set_perm_cons_eraseIdx insidePost
          ((s'.move e p c.run).2.1, own')).map Prod.snd).sum_eq
        have here : posts[k] = (s', own) := (List.getElem?_eq_some_iff.mp foundPost).2
        rw [List.map_cons, List.sum_cons, here] at whole
        rw [List.map_cons, List.sum_cons] at whole'
        have after := leads.fallbacks
          (n + c.history.records.countP (·.fellBack) + ((posts.eraseIdx k).map Prod.snd).sum)
          (counted.trans (congrArg some (by omega)))
        refine after.trans (congrArg some ?_)
        simp only [Chronicle.update, History.records, History.settled, List.filterMap_append,
          List.map_append, List.countP_append] at whole' ⊢
        omega
      · intro x mem
        simp only [Chronicle.update, History.settled, List.filterMap_append, List.mem_append] at mem
        rcases mem with old | new
        · exact m.spares x old
        · exact leads.spares x new

theorem Valid.cancel (v : c.Valid p begun) (f : Cancellation → Cancellation) :
    (c.cancel f).Valid p begun := by
  obtain ⟨posts, m⟩ := v
  exact ⟨posts, { m with course := m.course.work _ }⟩

/-- Every interleaving is a course of the call. -/
theorem Valid.moves (sound : p.Sound) (h : begun.Begun p) (v : c.Valid p begun) (ms : List Move) :
    (c.moves e p ms).Valid p begun := by
  induction ms generalizing c with
  | nil => exact v
  | cons m rest ih =>
      refine ih ?_
      cases m with
      | worker k => exact v.worker sound h k
      | raise t => exact v.cancel _
      | cancelInFlight => exact v.cancel _

/-- When all workers are gone, none has a node in hand or owes a read, and all fallbacks are on
record. -/
theorem Valid.finished (v : c.Valid p begun) (gone : (c.crew p).allGone = true) :
    Course p begun c.run c.history [] [] ∧
      ∀ n, begun.resources.fallbacks? = some n →
        c.run.resources.fallbacks? = some (n + c.history.records.countP (·.fellBack)) := by
  obtain ⟨posts, m⟩ := v
  have all : ∀ s ∈ c.stations, s = .gone := by
    intro s mem
    have last := List.all_eq_true.mp gone _ (List.mem_map.mpr ⟨s, mem, rfl⟩)
    cases s with
    | gone => rfl
    | _ => contradiction
  have empty {α : Type} {f : Station → List α} (nothing : f .gone = []) : c.stations.flatMap f = [] :=
    List.flatMap_eq_nil_iff.mpr fun s mem => by rw [all s mem, nothing]
  have none_ : (posts.map Prod.snd).sum = 0 := by
    refine List.sum_eq_zero fun own counted => ?_
    obtain ⟨x, mem, rfl⟩ := List.mem_map.mp counted
    have last := all x.1 (m.stations ▸ List.mem_map.mpr ⟨x, mem, rfl⟩)
    have here := m.at_ x mem
    rw [last] at here
    exact here
  have course := m.course
  rw [empty rfl, empty rfl] at course
  refine ⟨course, fun n before => ?_⟩
  have counted := m.fallbacks n before
  rwa [none_, Nat.add_zero] at counted

/-- A worker that performs a node has it in hand, and owes all of its reads. -/
theorem Valid.performing (v : c.Valid p begun) {i : Nat} {job : Job Run Performed}
    (mem : .performing i job ∈ c.stations) :
    ∃ hands owed, Course p begun c.run c.history hands owed ∧ i ∈ hands ∧
      ∀ slot ∈ p.graph.inputsOf i, slot ∈ owed := by
  obtain ⟨posts, m⟩ := v
  exact ⟨_, _, m.course, List.mem_flatMap.mpr ⟨_, mem, List.mem_singleton_self i⟩,
    fun slot read => List.mem_flatMap.mpr ⟨_, mem, read⟩⟩

end Chronicle

/-- The chronicle of a call whose arguments are in place is valid, however its workers take turns. -/
theorem Plan.valid_chronicle {e : Environment} {p : Plan} (sound : p.Sound) {run : Run}
    (h : run.Begun p) (workers : Nat) (ms : List Move) :
    (p.chronicle e run workers ms).Valid p run :=
  (Chronicle.Valid.initial _).moves sound h ms

/-! ## what every run of a node ensures -/

/-- What is known of a worker while its node runs and then of its result, if every run of the node
ensures it. -/
def Station.Ensures (p : Plan) (P : Nat → Performed → Prop) : Station → Prop
  | .performing i job => job.Ensures (Run.Furnished p.graph i) (fun _ _ => True) (P i)
  | .retiring i _ done => P i done
  | _ => True

section Ensures

variable {e : Environment} {p : Plan} {P : Nat → Performed → Prop} {begun r : Run} {es : History}
  {hands owed : List Nat}

/-- A node that a worker starts is live. -/
theorem Course.live_of_next (sound : p.Sound) (h : begun.Begun p)
    (course : Course p begun r es hands owed) {i : Nat} {r' : Run}
    (told : r.next e p = (.start i, r')) : p.isLive i = true := by
  simp only [Run.next] at told
  rcases Dispatch.next_cases p r.dispatch (r.resources.cancellation.isCancelled e.token) with
    ⟨stop, -⟩ | ⟨-, -, ⟨j, d', found, start⟩ | ⟨-, wait⟩⟩
  · simp [stop] at told
  · rw [start] at told
    obtain rfl := Turn.start.inj (Prod.mk.inj told).1
    exact ((course.accounts sound h.toFresh).standing.candidate sound found).1
  · simp [wait] at told

/-- A section of a worker keeps what the runs of its nodes ensure. -/
theorem Station.Ensures.move (sound : p.Sound) (h : begun.Begun p)
    (ensures : ∀ i, p.isLive i = true →
      (perform e p i).Ensures (Run.Furnished p.graph i) (fun _ _ => True) (P i))
    {s : Station} (here : s.Ensures p P) (course : Course p begun r es hands owed)
    (held : s.hands ⊆ hands) (due : s.owed p.graph ⊆ owed) :
    (s.move e p r).2.1.Ensures p P ∧ ∀ x ∈ (s.move e p r).2.2.settled, P x.1 x.2 := by
  have retires (i : Nat) (done : Performed) (made : P i done) (reads : List Nat) :
      (Station.retire p r i done reads).2.1.Ensures p P ∧
        ∀ x ∈ (Station.retire p r i done reads).2.2.settled, P x.1 x.2 := by
    cases reads with
    | nil => exact ⟨trivial, by simpa [Station.retire, History.settled, Event.settlement?] using made⟩
    | cons slot rest => exact ⟨made, by simp [Station.retire, History.settled, Event.settlement?]⟩
  have nothing : ∀ x ∈ History.settled [], P x.1 x.2 := by simp [History.settled]
  cases s with
  | gone => exact ⟨here, nothing⟩
  | leaving i => exact ⟨trivial, nothing⟩
  | retiring i reads done => exact retires i done here reads
  | performing i job =>
      cases job with
      | done done => exact retires i done here _
      | announce calls next => exact ⟨here, nothing⟩
      | await ready next =>
          refine ⟨?_, nothing⟩
          simp only [Station.move]
          split <;> exact here
      | step act next =>
          have furnished := course.furnished sound h (held (List.mem_singleton_self i))
            fun slot read => due read
          exact ⟨(here r furnished).2, nothing⟩
  | idle =>
      cases told : r.next e p with
      | mk turn r' =>
          simp only [Station.move, told]
          cases turn with
          | wait => exact ⟨trivial, nothing⟩
          | start i =>
              refine ⟨ensures i (course.live_of_next sound h told), ?_⟩
              simp [History.settled, Event.settlement?]
          | stop =>
              refine ⟨trivial, ?_⟩
              dsimp only
              split <;> simp [History.settled, Event.settlement?]

/-- What is known of a call, if every run of a node ensures it: of the nodes in hand, and of those that
are settled. -/
structure Chronicle.Ensures (p : Plan) (P : Nat → Performed → Prop) (c : Chronicle) : Prop where
  stations : ∀ s ∈ c.stations, s.Ensures p P
  settled : ∀ x ∈ c.history.settled, P x.1 x.2

/-- A section of a worker concerns its own node alone. -/
theorem Chronicle.Ensures.worker (sound : p.Sound) (h : begun.Begun p)
    (ensures : ∀ i, p.isLive i = true →
      (perform e p i).Ensures (Run.Furnished p.graph i) (fun _ _ => True) (P i))
    {c : Chronicle} (known : c.Ensures p P) (valid : c.Valid p begun) (k : Nat) :
    (c.move e p (.worker k)).Ensures p P := by
  simp only [Chronicle.move]
  cases found : c.stations[k]? with
  | none => exact known
  | some s =>
      have mem := List.mem_of_getElem? found
      obtain ⟨posts, m⟩ := valid
      obtain ⟨at_, new⟩ := (known.stations s mem).move (r := c.run) sound h ensures m.course
        (fun i held => List.mem_flatMap.mpr ⟨s, mem, held⟩)
        fun slot due => List.mem_flatMap.mpr ⟨s, mem, due⟩
      refine ⟨fun t there => ?_, fun x there => ?_⟩
      · rcases List.mem_or_eq_of_mem_set there with old | rfl
        · exact known.stations t old
        · exact at_
      · simp only [Option.elim_some, Chronicle.update, History.settled_append] at there
        rcases List.mem_append.mp there with old | late
        · exact known.settled x old
        · exact new x late

/-- What every run of a live node ensures, as long as its inputs are in place, holds of all nodes that
are settled, however the workers take turns. -/
theorem Plan.settled_of_ensures (sound : p.Sound) {run : Run} (h : run.Begun p)
    (ensures : ∀ i, p.isLive i = true →
      (perform e p i).Ensures (Run.Furnished p.graph i) (fun _ _ => True) (P i))
    (workers : Nat) (ms : List Move) :
    ∀ x ∈ (p.chronicle e run workers ms).history.settled, P x.1 x.2 := by
  suffices all : ∀ c : Chronicle, c.Valid p run → c.Ensures p P → (c.moves e p ms).Ensures p P by
    refine (all _ (.initial _) ⟨fun s mem => ?_, nofun⟩).settled
    rw [(List.mem_replicate.mp mem).2]
    exact trivial
  induction ms with
  | nil => exact fun c _ known => known
  | cons m rest ih =>
      intro c valid known
      cases m with
      | raise t => exact ih _ (valid.cancel _) ⟨known.stations, known.settled⟩
      | cancelInFlight => exact ih _ (valid.cancel _) ⟨known.stations, known.settled⟩
      | worker k => exact ih _ (valid.worker sound h k) (known.worker sound h ensures valid k)

end Ensures

/-- When all workers are gone, the call has failed or nothing is left to do. -/
theorem Plan.over_chronicle {e : Environment} {p : Plan} (sound : p.Sound)
    {supplied : List (ValueId × Value)} {resources : Resources} {run : Run}
    (bound : Run.bind e p supplied p.graph.arguments.toList (Run.initial p resources) =
      (.ok (), run)) {workers : Nat} {ms : List Move}
    (gone : ((p.chronicle e run workers ms).crew p).allGone = true) :
    (p.chronicle e run workers ms).run.Over := by
  have crew := p.crew_chronicle e run workers ms
  obtain ⟨-, -, -, -, past⟩ := (Ledger.crew (C := Conduct.confined e p) sound trivial
    Stock.admits_confined bound workers ms).finished (crew ▸ gone)
  rw [← crew] at past
  exact past

end HomCircuit
