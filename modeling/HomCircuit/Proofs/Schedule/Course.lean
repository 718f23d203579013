import HomCircuit.Proofs.Schedule.Ledger

/-!
# HomCircuit.Proofs.Schedule.Course

The history of a call, and what its state tells of it.

```
history    =  before the first failure  ++  after it
completed  =  kept                      ++  discarded
```

The scheduler is a transition system of its own: a node starts, one of its reads ends, it is settled with
whatever result, or a cancellation is noticed. Who takes these steps, and what backends do in between, is
left open.

* `Event`, `History` — what happens in a call, oldest first;
* `Course` — the states of a call with their histories;
* `Run.Accounts` — a state tells its history: the dispatch stands where the nodes that were kept and lost
  put it, and the trace lists what happened;
* `Course.accounts` — so does every state of a call.
-/

namespace HomCircuit

/-! ## histories -/

/-- What happens in a call. -/
inductive Event
  | started (index : Nat)
  /-- A read of a slot ends. -/
  | released (slot : Nat)
  /-- A node that has run is settled. -/
  | settled (index : Nat) (done : Performed)
  /-- A cancellation is noticed. -/
  | cancelled

namespace Event

/-- The node that starts. -/
def start? : Event → Option Nat
  | .started i => some i
  | _ => none

/-- The node that is settled, with how it ran. -/
def settlement? : Event → Option (Nat × Performed)
  | .settled i done => some (i, done)
  | _ => none

/-- Whether a read of a slot ends. -/
def releases (slot : Nat) : Event → Bool
  | .released s => s == slot
  | _ => false

/-- What makes a call fail. -/
def failure? : Event → Option Failure
  | .settled _ done =>
    match done.result with
    | .ok _ => none
    | .error err => some ⟨err, some done.record.node⟩
  | .cancelled => some ⟨.cancelled, none⟩
  | _ => none

end Event

/-- What has happened in a call, oldest first. -/
abbrev History : Type := List Event

namespace History

variable (es : History)

/-- The nodes that have started. -/
def started : List Nat := es.filterMap Event.start?

/-- The nodes that have been settled, with how they ran. -/
def settled : List (Nat × Performed) := es.filterMap Event.settlement?

/-- The nodes that gave a result, with their results. -/
def results : List (Nat × Buffer) :=
  es.settled.filterMap fun s => s.2.result.toOption.map (s.1, ·)

/-- The nodes that gave a result. -/
def completed : List Nat := es.results.map Prod.fst

/-- How many reads of a slot have ended. -/
def released (slot : Nat) : Nat := es.countP (Event.releases slot)

/-- What made the call fail first. -/
def failure? : Option Failure := es.findSome? Event.failure?

/-- What happened before the call failed. -/
def before : History := es.takeWhile (·.failure?.isNone)

/-- The failure and what happened after it. -/
def after : History := es.dropWhile (·.failure?.isNone)

/-- The nodes whose results were kept. -/
def kept : List Nat := es.before.completed

/-- The nodes that failed, or whose results came too late. -/
def lost : List Nat := es.after.settled.map Prod.fst

/-- The nodes whose results came too late. -/
def discarded : List Nat := es.after.completed

/-- The records of the nodes that have been settled. -/
def records : List NodeRecord := es.settled.map (·.2.record)

/-- The first node that failed. -/
def failed? : Option NodeId :=
  (es.settled.find? (!·.2.result.isOk)).map (·.2.record.node)

/-- What the trace of a call lists while its nodes run. -/
def trace (p : Plan) : Trace :=
  { started := es.started.map fun i => (p.graph.node i).id
    completed := es.completed.map fun i => (p.graph.node i).id
    discarded := es.discarded.map fun i => (p.graph.node i).id
    failed := es.failed?
    records := es.records
    fallbacks := es.records.countP (·.fellBack) }

variable {es}

/-! ### before and after the failure -/

theorem before_append_after : es.before ++ es.after = es := List.takeWhile_append_dropWhile

theorem failure?_eq_none_iff : es.failure? = none ↔ ∀ ev ∈ es, ev.failure? = none :=
  List.findSome?_eq_none_iff

/-- What follows on a history without failure is looked at as if it stood alone. -/
theorem before_append_of_healthy (healthy : es.failure? = none) (es' : History) :
    before (es ++ es') = es ++ before es' :=
  List.takeWhile_append_of_pos fun ev mem => by simp [failure?_eq_none_iff.mp healthy ev mem]

theorem after_append_of_healthy (healthy : es.failure? = none) (es' : History) :
    after (es ++ es') = after es' :=
  List.dropWhile_append_of_pos fun ev mem => by simp [failure?_eq_none_iff.mp healthy ev mem]

theorem after_of_healthy (healthy : es.failure? = none) : es.after = [] := by
  have := after_append_of_healthy healthy []
  rwa [List.append_nil] at this

theorem before_of_healthy (healthy : es.failure? = none) : es.before = es := by
  have := before_append_of_healthy healthy []
  rwa [List.append_nil, show before [] = [] from rfl, List.append_nil] at this

/-- What happens after a failure changes nothing of what was before it. -/
theorem split_append_of_failed {f : Failure} (failed : es.failure? = some f) (es' : History) :
    before (es ++ es') = before es ∧ after (es ++ es') = after es ++ es' := by
  induction es with
  | nil => contradiction
  | cons ev rest ih =>
      cases first : ev.failure? with
      | some f => simp [before, after, first]
      | none =>
          have failed' : failure? rest = some f := by simpa [failure?, first] using failed
          simpa [before, after, first] using ih failed'

theorem mem_settled {i : Nat} {done : Performed} : (i, done) ∈ es.settled ↔ .settled i done ∈ es := by
  refine ⟨fun mem => ?_, fun mem => List.mem_filterMap.mpr ⟨_, mem, rfl⟩⟩
  obtain ⟨ev, there, same⟩ := List.mem_filterMap.mp mem
  cases ev with
  | settled j made =>
      cases same
      exact there
  | _ => contradiction

theorem settled_append (es es' : History) : settled (es ++ es') = es.settled ++ es'.settled :=
  List.filterMap_append

theorem results_append (es es' : History) : results (es ++ es') = es.results ++ es'.results := by
  simp [results, settled]

theorem completed_append (es es' : History) :
    completed (es ++ es') = es.completed ++ es'.completed := by
  rw [completed, results_append, List.map_append]
  rfl

/-- The results that were kept come first, and then those that came too late. -/
theorem completed_eq (es : History) : es.completed = es.kept ++ es.discarded := by
  rw [kept, discarded, ← completed_append, before_append_after]

/-! ### one more event -/

section Snoc

variable (es) (ev : Event)

theorem started_snoc : started (es ++ [ev]) = es.started ++ ev.start?.toList := by
  rw [started, List.filterMap_append, started]
  cases ev <;> rfl

theorem settled_snoc : settled (es ++ [ev]) = es.settled ++ ev.settlement?.toList := by
  rw [settled_append]
  cases ev <;> rfl

theorem results_single : results [ev] =
    ev.settlement?.toList.filterMap fun s => s.2.result.toOption.map (s.1, ·) := by
  cases ev <;> rfl

theorem completed_single : completed [ev] =
    (ev.settlement?.toList.filterMap fun s => s.2.result.toOption.map (s.1, ·)).map Prod.fst := by
  rw [completed, results_single]

theorem failure?_snoc : failure? (es ++ [ev]) = es.failure?.or ev.failure? := by
  rw [failure?, List.findSome?_append, failure?, List.findSome?_singleton]

theorem released_snoc (slot : Nat) :
    released (es ++ [ev]) slot = es.released slot + if ev.releases slot then 1 else 0 := by
  rw [released, List.countP_append, released, List.countP_singleton]

/-- What makes a call fail gives no result. -/
theorem results_of_failure {f : Failure} (failed : ev.failure? = some f) : results [ev] = [] := by
  rw [results_single]
  cases ev with
  | settled i done =>
      cases result : done.result with
      | ok b => simp [Event.failure?, result] at failed
      | error err => simp [Event.settlement?, result, Except.toOption]
  | _ => rfl

/-- A result is kept while the call has not failed. -/
theorem results_before_snoc : (before (es ++ [ev])).results =
    es.before.results ++ if es.failure?.isNone then results [ev] else [] := by
  cases failed : es.failure? with
  | some f =>
      have split := split_append_of_failed failed [ev]
      simp [split.1]
  | none =>
      rw [before_append_of_healthy failed, results_append, before_of_healthy failed]
      refine congrArg (es.results ++ ·) ?_
      cases own : ev.failure? with
      | none => simp [before, own]
      | some f =>
          have nothing : before [ev] = [] := by simp [before, own]
          rw [nothing, results_of_failure ev own]
          rfl

theorem kept_snoc : kept (es ++ [ev]) =
    es.kept ++ if es.failure?.isNone then completed [ev] else [] := by
  simp only [kept, completed, results_before_snoc, List.map_append]
  split <;> rfl

theorem after_snoc : after (es ++ [ev]) =
    es.after ++ if es.failure?.isNone && ev.failure?.isNone then [] else [ev] := by
  cases failed : es.failure? with
  | some f => exact (split_append_of_failed failed [ev]).2
  | none =>
      rw [after_append_of_healthy failed, after_of_healthy failed]
      cases own : ev.failure? with
      | none => simp [after, own]
      | some f => simp [after, own]

/-- A result comes too late once the call has failed. -/
theorem discarded_snoc : discarded (es ++ [ev]) =
    es.discarded ++ if es.failure?.isNone then [] else completed [ev] := by
  rw [discarded, after_snoc, completed_append]
  refine congrArg (es.discarded ++ ·) ?_
  cases es.failure? with
  | some f => rfl
  | none =>
      cases own : ev.failure? with
      | none => rfl
      | some f =>
          change completed [ev] = []
          rw [completed, results_of_failure ev own]
          rfl

/-- A node is lost if it fails, or ends once the call has failed. -/
theorem lost_snoc : lost (es ++ [ev]) =
    es.lost ++ if es.failure?.isNone && ev.failure?.isNone then []
      else ev.settlement?.toList.map Prod.fst := by
  rw [lost, after_snoc, settled_append, List.map_append]
  refine congrArg (es.lost ++ ·) ?_
  split
  · rfl
  · cases ev <;> rfl

variable {ev} in
/-- Nothing starts after a failure if nothing had started after it before, and nothing starts now. -/
theorem started_after_snoc (contained : es.after.started = [])
    (quiet : es.failure? = none ∧ ev.failure? = none ∨ ev.start? = none) :
    (after (es ++ [ev])).started = [] := by
  rw [after_snoc]
  rcases quiet with ⟨healthy, harmless⟩ | quiet
  · simpa [healthy, harmless] using contained
  · split
    · simpa using contained
    · rw [started_snoc, contained, quiet]
      rfl

/-! ### the trace after one more event -/

variable {ev} (p : Plan)

theorem trace_snoc_quiet (start : ev.start? = none) (settlement : ev.settlement? = none) :
    trace (es ++ [ev]) p = es.trace p := by
  simp [trace, started_snoc, completed_append, completed_single, discarded_snoc, failed?, records,
    settled_snoc, start, settlement]

theorem trace_snoc_started (i : Nat) :
    trace (es ++ [.started i]) p = (es.trace p).start (p.graph.node i).id := by
  simp [trace, started_snoc, completed_append, completed_single, discarded_snoc, failed?, records,
    settled_snoc, Event.start?, Event.settlement?, Trace.start]

theorem trace_snoc_error {i : Nat} {done : Performed} {err : RunError}
    (result : done.result = .error err) :
    trace (es ++ [.settled i done]) p = (es.trace p).fail done.record := by
  have failed : done.result.isOk = false ∧ done.result.toOption = none := by
    rw [result]
    exact ⟨rfl, rfl⟩
  cases first : es.settled.find? (!·.2.result.isOk) <;>
    simp [trace, started_snoc, completed_append, completed_single, discarded_snoc, failed?, records,
      settled_snoc, Event.start?, Event.settlement?, Trace.fail, Trace.record, failed, first,
      List.countP_singleton, List.find?_append]

theorem trace_snoc_ok {i : Nat} {done : Performed} {b : Buffer} (result : done.result = .ok b)
    (named : done.record.node = (p.graph.node i).id) :
    trace (es ++ [.settled i done]) p = (es.trace p).finish done.record es.failure?.isSome := by
  have ok : done.result.isOk = true ∧ done.result.toOption = some b := by
    rw [result]
    exact ⟨rfl, rfl⟩
  cases failed : es.failure? <;>
    simp [trace, started_snoc, completed_append, completed_single, discarded_snoc, failed?, records,
      settled_snoc, Event.start?, Event.settlement?, Trace.finish, Trace.record, ok, named, failed,
      List.countP_singleton, List.find?_append]

end Snoc

end History

/-! ## the course of a call -/

/-- The states that a call may get to from where it began, with the history that led there, the nodes
that workers have in hand, and the reads that they owe. What backends and others do to the resources
meanwhile is left open. -/
inductive Course (p : Plan) (begun : Run) : Run → History → List Nat → List Nat → Prop
  | begin : Course p begun begun [] [] []
  | arrange {r : Run} {es : History} {hands hands' owed owed' : List Nat}
      (course : Course p begun r es hands owed) (sameHands : hands.Perm hands')
      (sameOwed : owed.Perm owed') : Course p begun r es hands' owed'
  | work {r : Run} {es : History} {hands owed : List Nat}
      (course : Course p begun r es hands owed) (resources : Resources) :
      Course p begun { r with resources } es hands owed
  /-- A worker asks for a node when the call has been cancelled. -/
  | cancel {r : Run} {es : History} {hands owed : List Nat}
      (course : Course p begun r es hands owed) (healthy : r.dispatch.failure = none) :
      Course p begun { r with dispatch := r.dispatch.notice true } (es ++ [.cancelled]) hands owed
  /-- A worker asks for a node and gets one. -/
  | start {r : Run} {es : History} {hands owed : List Nat} {i : Nat} {d' : Dispatch}
      (course : Course p begun r es hands owed) (healthy : r.dispatch.failure = none)
      (found : r.dispatch.candidate? p = some (i, d')) :
      Course p begun
        { r with
          dispatch := { d' with started := i :: d'.started, running := d'.running + 1 }
          trace := r.trace.start (p.graph.node i).id }
        (es ++ [.started i]) (i :: hands) (p.graph.inputsOf i ++ owed)
  | release {r : Run} {es : History} {hands owed : List Nat} {slot : Nat}
      (course : Course p begun r es hands (slot :: owed)) :
      Course p begun (r.release slot) (es ++ [.released slot]) hands owed
  | settle {r : Run} {es : History} {hands owed : List Nat} {i : Nat} {done : Performed}
      (course : Course p begun r es (i :: hands) owed)
      (named : done.record.node = (p.graph.node i).id) :
      Course p begun (r.complete p i done) (es ++ [.settled i done]) hands owed

/-- What a state tells of its history, while workers have some nodes in hand. -/
structure Run.Accounts (p : Plan) (r : Run) (es : History) (hands : List Nat) : Prop where
  standing : r.dispatch.Standing p hands es.kept.reverse es.lost.reverse
  running : r.dispatch.running = hands.length
  started : r.dispatch.started.reverse = es.started
  /-- Nothing has started after a failure. -/
  contained : es.after.started = []
  failure : r.dispatch.failure = es.failure?
  named : ∀ s ∈ es.settled, s.2.record.node = (p.graph.node s.1).id
  trace : r.trace = es.trace p

/-- A call that has not begun: no node has started. -/
structure Run.Fresh (p : Plan) (r : Run) : Prop where
  dispatch : r.dispatch = .initial p
  trace : r.trace = {}

namespace Run.Accounts

variable {p : Plan} {r : Run} {es : History} {hands owed : List Nat} {i slot : Nat}

theorem fresh (h : r.Fresh p) : r.Accounts p [] [] where
  standing := h.dispatch ▸ Dispatch.Standing.initial p
  running := h.dispatch ▸ rfl
  started := h.dispatch ▸ rfl
  contained := rfl
  failure := h.dispatch ▸ rfl
  named := nofun
  trace := h.trace

theorem arrange {hands' : List Nat} (a : r.Accounts p es hands) (same : hands.Perm hands') :
    r.Accounts p es hands' :=
  { a with
    standing := a.standing.perm same
    running := a.running.trans same.length_eq }

theorem work (a : r.Accounts p es hands) (resources : Resources) :
    Run.Accounts p { r with resources } es hands :=
  { a with }

/-- A read ends. -/
theorem release (a : r.Accounts p es hands) (slot : Nat) :
    (r.release slot).Accounts p (es ++ [.released slot]) hands where
  standing := by
    change Dispatch.Standing p r.dispatch hands _ _
    simpa [History.kept_snoc, History.lost_snoc, History.completed_single, Event.settlement?] using
      a.standing
  running := a.running
  started := by
    rw [History.started_snoc, ← a.started]
    exact (List.append_nil _).symm
  contained := History.started_after_snoc es a.contained (.inr rfl)
  failure := by
    rw [History.failure?_snoc, ← a.failure]
    exact (Option.or_none).symm
  named := by simpa [History.settled_snoc, Event.settlement?] using a.named
  trace := a.trace.trans (History.trace_snoc_quiet es p rfl rfl).symm

/-- A cancellation is noticed. -/
theorem cancel (a : r.Accounts p es hands) (healthy : r.dispatch.failure = none) :
    Run.Accounts p { r with dispatch := r.dispatch.notice true } (es ++ [.cancelled]) hands where
  standing := by
    simpa [History.kept_snoc, History.lost_snoc, History.completed_single, Event.settlement?] using
      a.standing.notice true
  running := by simpa [Dispatch.notice, healthy] using a.running
  started := by
    rw [History.started_snoc, ← a.started]
    simp [Dispatch.notice, healthy, Event.start?]
  contained := History.started_after_snoc es a.contained (.inr rfl)
  failure := by
    rw [History.failure?_snoc, ← a.failure, healthy]
    simp [Dispatch.notice, healthy, Event.failure?]
  named := by simpa [History.settled_snoc, Event.settlement?] using a.named
  trace := a.trace.trans (History.trace_snoc_quiet es p rfl rfl).symm

/-- A node starts. -/
theorem start (sound : p.Sound) (a : r.Accounts p es hands) {d' : Dispatch}
    (healthy : r.dispatch.failure = none) (found : r.dispatch.candidate? p = some (i, d')) :
    Run.Accounts p
      { r with
        dispatch := { d' with started := i :: d'.started, running := d'.running + 1 }
        trace := r.trace.start (p.graph.node i).id }
      (es ++ [.started i]) (i :: hands) := by
  obtain ⟨standing, started, failure⟩ := a.standing.start sound found
  have running : d'.running = r.dispatch.running := by
    rcases Dispatch.candidate?_cases found with ⟨-, -, -, rfl⟩ | ⟨-, rest, -, rfl⟩ <;> rfl
  exact
    { standing := by
        simpa [History.kept_snoc, History.lost_snoc, History.completed_single, Event.settlement?]
          using standing
      running := by simp [running, a.running]
      started := by simp [History.started_snoc, ← a.started, started, Event.start?]
      contained :=
        History.started_after_snoc es a.contained (.inl ⟨a.failure.symm.trans healthy, rfl⟩)
      failure := by simp [History.failure?_snoc, ← a.failure, failure, Event.failure?]
      named := by simpa [History.settled_snoc, Event.settlement?] using a.named
      trace := by
        rw [History.trace_snoc_started, ← a.trace] }

/-- A node is settled. -/
theorem settle (sound : p.Sound) (a : r.Accounts p es (i :: hands)) {done : Performed}
    (named : done.record.node = (p.graph.node i).id) :
    (r.complete p i done).Accounts p (es ++ [.settled i done]) hands := by
  have names : ∀ s ∈ History.settled (es ++ [.settled i done]),
      s.2.record.node = (p.graph.node s.1).id := by
    simp only [History.settled_snoc, Event.settlement?, Option.toList_some, List.mem_append,
      List.mem_singleton]
    rintro s (old | rfl)
    · exact a.named s old
    · exact named
  have running : r.dispatch.running - 1 = hands.length := by simp [a.running]
  have contained : (History.after (es ++ [.settled i done])).started = [] :=
    History.started_after_snoc es a.contained (.inr rfl)
  unfold Run.complete
  cases result : done.result with
  | error err =>
      exact
        { standing := by
            simpa [History.kept_snoc, History.lost_snoc, History.completed_single, Event.settlement?,
              Event.failure?, result, Except.toOption] using a.standing.fail err done.record.node
          running := running
          started := by simp [History.started_snoc, ← a.started, Dispatch.fail, Event.start?]
          contained := contained
          failure := by
            simp [History.failure?_snoc, ← a.failure, Dispatch.fail, Event.failure?, result]
          named := names
          trace := by rw [History.trace_snoc_error es p result, ← a.trace] }
  | ok b =>
      dsimp only
      cases failed : r.dispatch.failure with
      | some f =>
          have failed' : es.failure? = some f := a.failure.symm.trans failed
          exact
            { standing := by
                simpa [History.kept_snoc, History.lost_snoc, History.completed_single,
                  Event.settlement?, failed'] using a.standing.discard (by simp [failed])
              running := running
              started := by simp [History.started_snoc, ← a.started, Dispatch.discard, Event.start?]
              contained := contained
              failure := by
                simp [History.failure?_snoc, failed', Dispatch.discard, failed]
              named := names
              trace := by rw [History.trace_snoc_ok es p result named, ← a.trace, failed']; rfl }
      | none =>
          have healthy : es.failure? = none := a.failure.symm.trans failed
          have same : r.dispatch.succeed p i = { r.dispatch with
              running := r.dispatch.running - 1
              remaining := r.dispatch.remaining - 1
              pending := (r.dispatch.succeed p i).pending
              ready := (r.dispatch.succeed p i).ready } := by
            rw [Dispatch.succeed, Dispatch.foldl_resolve]
          exact
            { standing := by
                simpa [History.kept_snoc, History.lost_snoc, History.completed_single,
                  Event.settlement?, Event.failure?, result, healthy, Except.toOption] using
                  a.standing.succeed sound
              running := by
                simp only [Option.isSome_none, Bool.false_eq_true, if_false]
                rw [same]
                exact running
              started := by
                simp only [Option.isSome_none, Bool.false_eq_true, if_false]
                rw [same]
                simp [History.started_snoc, ← a.started, Event.start?]
              contained := contained
              failure := by
                simp only [Option.isSome_none, Bool.false_eq_true, if_false]
                rw [same]
                simp [History.failure?_snoc, healthy, failed, Event.failure?, result]
              named := names
              trace := by rw [History.trace_snoc_ok es p result named, ← a.trace, healthy]; rfl }

/-! ### what the accounts say -/

/-- No result is kept twice. -/
theorem nodup_kept (a : r.Accounts p es hands) : es.kept.Nodup :=
  List.nodup_reverse.mp
    (List.nodup_append'.mp (List.nodup_append'.mp (a.standing.split.nodup_iff.mp a.standing.nodup)).1).1

/-- Only live nodes run. -/
theorem kept_live (a : r.Accounts p es hands) : ∀ i ∈ es.kept, p.isLive i = true := fun i mem =>
  a.standing.alive i (a.standing.started_of_done (List.mem_reverse.mpr mem))

end Run.Accounts

/-- Every state of a call tells its history. -/
theorem Course.accounts {p : Plan} (sound : p.Sound) {begun r : Run} (fresh : begun.Fresh p)
    {es : History} {hands owed : List Nat} (course : Course p begun r es hands owed) :
    r.Accounts p es hands := by
  induction course with
  | begin => exact .fresh fresh
  | arrange _ sameHands _ ih => exact ih.arrange sameHands
  | work _ resources ih => exact ih.work resources
  | cancel _ healthy ih => exact ih.cancel healthy
  | start _ healthy found ih => exact ih.start sound healthy found
  | release _ ih => exact ih.release _
  | settle _ named ih => exact ih.settle sound named

end HomCircuit
