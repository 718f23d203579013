import HomCircuit.Proofs.Schedule.Course
import HomCircuit.Proofs.Schedule.Execution
import HomCircuit.Proofs.Schedule.Returns

/-!
# HomCircuit.Proofs.Schedule.Lifetime

How long the values of a call stay in the arena.

```
reads of a slot  =  reads that have ended  +  reads that are left
in its slot      ⇔  it was put there, and reads are left
```

* `History.stored?` — the buffer that was put in a slot;
* `Run.Shelves` — a slot holds what was put there until its last read ends, and then nothing;
* `Course.shelves` — so it does in every state of a call;
* `Course.furnished` — a node that a worker has in hand finds all its inputs.
-/

namespace HomCircuit

/-- The buffer that was put in a slot: an argument when the call began, the result of a node when it was
kept. -/
def History.stored? (es : History) (p : Plan) (begun : Run) (slot : Nat) : Option Buffer :=
  match p.graph.producer? slot with
  | none => begun.arena.get? slot
  | some i => es.before.results.lookup i

/-- A call whose arguments are in place, and nothing else. -/
structure Run.Begun (p : Plan) (r : Run) : Prop extends r.Fresh p where
  owed : ∀ slot, r.arena.owed slot = p.consumers slot
  argument : ∀ slot < p.graph.arguments.size, p.consumers slot ≠ 0 → (r.arena.get? slot).isSome = true
  empty : ∀ slot, p.graph.arguments.size ≤ slot ∨ p.consumers slot = 0 → r.arena.get? slot = none

/-- Every slot holds what was put there until the last of its reads has ended. -/
structure Run.Shelves (p : Plan) (begun r : Run) (es : History) (owed : List Nat) : Prop where
  reads : ∀ slot, p.consumers slot =
    es.released slot + (p.readsLeft r.dispatch.started owed).count slot
  owed : ∀ slot, r.arena.owed slot = p.consumers slot - es.released slot
  found : ∀ slot, r.arena.get? slot =
    if es.released slot < p.consumers slot then es.stored? p begun slot else none

section Begin

variable {e : Environment} {p : Plan} {supplied : List (ValueId × Value)} {resources : Resources}
  {run : Run}

/-- What binding arguments leaves. -/
theorem Run.begun_of_bind (sound : p.Sound)
    (bound : Run.bind e p supplied p.graph.arguments.toList (Run.initial p resources) =
      (.ok (), run)) : run.Begun p ∧ run.resources = resources := by
  obtain ⟨⟨shelf, stock, host⟩, same⟩ :=
    Stock.bind sound.wired sound.reads_lt p.consumers_eq_readsLeft
      (Stock.admits_confined (e := e) (p := p)) bound
  have reads (slot : Nat) : slot ∈ p.readsLeft [] [] ↔ p.consumers slot ≠ 0 := by
    rw [p.consumers_eq_readsLeft, Ne, List.count_eq_zero, not_not]
  refine ⟨{ dispatch := ?_, trace := ?_, owed := ?_, argument := ?_, empty := ?_ }, ?_⟩
  · rw [same]
    rfl
  · rw [same]
    rfl
  · intro slot
    rw [stock.owed, p.consumers_eq_readsLeft]
  · intro slot inside read
    obtain ⟨x, mem, rfl⟩ := stock.value inside ((reads slot).mpr read)
    rw [stock.found x mem]
    rfl
  · intro slot vacant
    refine stock.get?_eq_none fun mem => ?_
    obtain ⟨inside, left⟩ := (stock.filled slot).mp mem
    rcases vacant with beyond | unread
    · omega
    · exact (reads slot).mp left unread
  · rw [same]
    rfl

end Begin

/-! ## one step -/

section Steps

variable {p : Plan} {begun r : Run} {es : History} {hands owed : List Nat} {i slot : Nat}

theorem Plan.producer?_eq_none {g : Graph} (inside : slot < g.slotCount) (w : g.Wired)
    (none_ : g.producer? slot = none) : slot < g.arguments.size := by
  have count := w.slotCount
  unfold Graph.producer? at none_
  split at none_
  · assumption
  · rw [if_pos (by omega)] at none_
    contradiction

/-- An event that settles no node puts nothing in a slot. -/
theorem History.stored?_snoc {ev : Event} (settlement : ev.settlement? = none) :
    History.stored? (es ++ [ev]) p begun slot = es.stored? p begun slot := by
  have nothing : History.results [ev] = [] := by rw [History.results_single, settlement]; rfl
  unfold History.stored?
  rw [History.results_before_snoc, nothing]
  simp

/-- A result that is kept is put in the slot of its node. -/
theorem History.stored?_snoc_result {done : Performed} {b : Buffer} (inside : i < p.graph.size)
    (results : History.results (History.before (es ++ [.settled i done])) =
      es.before.results ++ [(i, b)]) (fresh : i ∉ es.kept) :
    History.stored? (es ++ [.settled i done]) p begun slot =
      if slot = p.graph.outputSlot i then some b else es.stored? p begun slot := by
  unfold History.stored?
  rw [results]
  by_cases own : slot = p.graph.outputSlot i
  · have absent : es.before.results.lookup i = none := by
      refine List.lookup_eq_none_iff.mpr fun s mem => ?_
      rw [bne_iff_ne]
      rintro rfl
      exact fresh (List.mem_map.mpr ⟨s, mem, rfl⟩)
    rw [if_pos own, own, Graph.producer?_outputSlot inside]
    simp [List.lookup_append, absent]
  · rw [if_neg own]
    cases produced : p.graph.producer? slot with
    | none => rfl
    | some j =>
        have apart : j ≠ i := by
          rintro rfl
          exact own (Plan.producer?_lt produced).2
        simp [List.lookup_append, List.lookup_cons, beq_eq_false_iff_ne.mpr apart]

/-- Before anything has happened, the arguments are in their slots. -/
theorem Run.Shelves.begin (h : begun.Begun p) : Run.Shelves p begun begun [] [] where
  reads slot := by
    rw [p.consumers_eq_readsLeft, h.dispatch]
    exact (Nat.zero_add _).symm
  owed slot := h.owed slot
  found slot := by
    by_cases read : p.consumers slot = 0
    · rw [if_neg (by rw [read]; exact Nat.not_lt_zero _)]
      exact h.empty slot (.inr read)
    · rw [if_pos (by exact Nat.pos_of_ne_zero read)]
      unfold History.stored?
      cases produced : p.graph.producer? slot with
      | none => rfl
      | some i =>
          obtain ⟨-, rfl⟩ := Plan.producer?_lt produced
          exact h.empty _ (.inl (Nat.le_add_right _ _))

theorem Run.Shelves.arrange {owed' : List Nat} (h : Run.Shelves p begun r es owed)
    (same : owed.Perm owed') : Run.Shelves p begun r es owed' :=
  { h with
    reads := fun slot => by rw [h.reads, (Ledger.perm_readsLeft same).count_eq] }

/-- A section that leaves arena and started nodes alone, and settles no node. -/
theorem Run.Shelves.quiet {r' : Run} {ev : Event} (h : Run.Shelves p begun r es owed)
    (arena : r'.arena = r.arena) (started : r'.dispatch.started = r.dispatch.started)
    (settlement : ev.settlement? = none) (released : ∀ slot, ev.releases slot = false) :
    Run.Shelves p begun r' (es ++ [ev]) owed where
  reads slot := by simpa [started, History.released_snoc, released] using h.reads slot
  owed slot := by simpa [arena, History.released_snoc, released] using h.owed slot
  found slot := by
    rw [History.stored?_snoc settlement, History.released_snoc, released, arena]
    exact h.found slot

/-- The reads of a node that starts are owed by its worker. -/
theorem Run.Shelves.start (sound : p.Sound) (h : Run.Shelves p begun r es owed) {d' : Dispatch}
    (a : r.Accounts p es hands) (found : r.dispatch.candidate? p = some (i, d')) :
    Run.Shelves p begun
      { r with
        dispatch := { d' with started := i :: d'.started, running := d'.running + 1 }
        trace := r.trace.start (p.graph.node i).id }
      (es ++ [.started i]) (p.graph.inputsOf i ++ owed) := by
  obtain ⟨alive, fresh, -⟩ := a.standing.candidate sound found
  obtain ⟨-, started, -⟩ := a.standing.start sound found
  have live := Plan.mem_liveIndices.mpr ⟨sound.live_lt i alive, alive⟩
  have begins : Run.Shelves p begun
      { r with dispatch := { r.dispatch with started := i :: r.dispatch.started } } es
      (p.graph.inputsOf i ++ owed) :=
    { h with
      reads := fun slot => by
        rw [h.reads, (Ledger.perm_readsLeft_start live fresh).count_eq] }
  exact begins.quiet rfl (by rw [started]) rfl fun _ => rfl

/-- The last read of a slot empties it. -/
theorem Run.Shelves.release (h : Run.Shelves p begun r es (slot :: owed)) :
    Run.Shelves p begun (r.release slot) (es ++ [.released slot]) owed where
  reads t := by
    have reads := h.reads t
    have started : (r.release slot).dispatch.started = r.dispatch.started := rfl
    simp only [Plan.readsLeft, List.count_append, List.count_cons, beq_iff_eq] at reads
    simp only [Plan.readsLeft, List.count_append, History.released_snoc, started, Event.releases,
      beq_iff_eq]
    omega
  owed t := by
    change (r.arena.release slot).2.owed t = _
    rw [Arena.owed_release, h.owed, History.released_snoc]
    by_cases same : t = slot
    · subst same
      simp only [Event.releases, beq_self_eq_true, if_true]
      omega
    · simp [Event.releases, same, Ne.symm same]
  found t := by
    change (r.arena.release slot).2.get? t = _
    rw [Arena.get?_release, History.stored?_snoc rfl, h.found, h.owed, History.released_snoc]
    by_cases same : t = slot
    · subst same
      simp only [Event.releases, beq_self_eq_true, if_true, true_and]
      by_cases last : p.consumers t - es.released t ≤ 1
      · rw [if_pos last, if_neg (by omega)]
      · rw [if_neg last, if_pos (by omega), if_pos (by omega)]
    · simp [Event.releases, same, Ne.symm same]

/-- A result that is kept is put in its slot, if anybody is going to read it. -/
theorem Run.Shelves.settle (sound : p.Sound) (h : Run.Shelves p begun r es owed)
    (a : r.Accounts p es (i :: hands)) (done : Performed) :
    Run.Shelves p begun (r.complete p i done) (es ++ [.settled i done]) owed := by
  -- where nothing is stored, nothing changes but the history
  have unchanged {r' : Run} (arena : r'.arena = r.arena)
      (started : r'.dispatch.started = r.dispatch.started)
      (results : History.results (History.before (es ++ [.settled i done])) = es.before.results) :
      Run.Shelves p begun r' (es ++ [.settled i done]) owed :=
    { reads := fun slot => by
        simpa [started, History.released_snoc, Event.releases] using h.reads slot
      owed := fun slot => by
        simpa [arena, History.released_snoc, Event.releases] using h.owed slot
      found := fun slot => by
        have stored : History.stored? (es ++ [.settled i done]) p begun slot =
            es.stored? p begun slot := by
          unfold History.stored?
          rw [results]
        rw [stored, History.released_snoc, arena]
        exact h.found slot }
  unfold Run.complete
  cases result : done.result with
  | error err =>
      have failing : Event.failure? (.settled i done) = some ⟨err, some done.record.node⟩ := by
        simp only [Event.failure?, result]
      refine unchanged rfl rfl ?_
      rw [History.results_before_snoc, History.results_of_failure _ failing]
      simp
  | ok b =>
      dsimp only
      cases failed : r.dispatch.failure with
      | some f =>
          refine unchanged rfl rfl ?_
          rw [History.results_before_snoc, ← a.failure, failed]
          exact List.append_nil _
      | none =>
          have started : (r.dispatch.succeed p i).started = r.dispatch.started := by
            rw [Dispatch.succeed, Dispatch.foldl_resolve]
          have results : History.results (History.before (es ++ [.settled i done])) =
              es.before.results ++ [(i, b)] := by
            rw [History.results_before_snoc, ← a.failure, failed, History.results_single]
            simp [Event.settlement?, result, Except.toOption]
          have inside := sound.live_lt i
            (a.standing.alive i (a.standing.started_of_hands List.mem_cons_self))
          have fresh : i ∉ es.kept := fun mem =>
            a.standing.not_done List.mem_cons_self (List.mem_reverse.mpr mem)
          simp only [Option.isSome_none, Bool.false_eq_true, if_false]
          exact
            { reads := fun slot => by
                simpa [started, History.released_snoc, Event.releases] using h.reads slot
              owed := fun slot => by
                simp only [Arena.owed_store, History.released_snoc, Event.releases]
                exact h.owed slot
              found := fun slot => by
                rw [History.stored?_snoc_result inside results fresh]
                simp only [Arena.get?_store, History.released_snoc, Event.releases, h.owed,
                  Bool.false_eq_true, if_false, Nat.add_zero]
                by_cases own : slot = p.graph.outputSlot i
                · by_cases read : es.released slot < p.consumers slot
                  · rw [if_pos ⟨own, by rw [← own]; omega⟩, if_pos read, if_pos own]
                  · have ended : p.consumers (p.graph.outputSlot i) -
                        es.released (p.graph.outputSlot i) = 0 := by
                      rw [← own]
                      omega
                    rw [if_neg fun both => both.2 ended, h.found, if_neg read, if_neg read]
                · rw [if_neg fun both => own both.1, if_neg own, h.found] }

end Steps

/-- Every slot holds what was put there until the last of its reads has ended. -/
theorem Course.shelves {p : Plan} (sound : p.Sound) {begun r : Run} (fresh : begun.Begun p)
    {es : History} {hands owed : List Nat} (course : Course p begun r es hands owed) :
    Run.Shelves p begun r es owed := by
  induction course with
  | begin => exact .begin fresh
  | arrange _ _ sameOwed ih => exact ih.arrange sameOwed
  | work _ resources ih => exact { ih with }
  | cancel _ healthy ih =>
      exact ih.quiet rfl (by simp [Dispatch.notice, healthy]) rfl fun _ => rfl
  | start course _ found ih => exact ih.start sound (course.accounts sound fresh.toFresh) found
  | release _ ih => exact ih.release
  | settle course _ ih => exact ih.settle sound (course.accounts sound fresh.toFresh) _

/-! ## what is found -/

section Found

variable {p : Plan} {begun r : Run} {es : History} {hands owed : List Nat} {i slot : Nat}

/-- While a read of a slot is left, what was put there is there. -/
theorem Run.Shelves.get?_eq (h : Run.Shelves p begun r es owed)
    (left : slot ∈ p.readsLeft r.dispatch.started owed) :
    p.consumers slot ≠ 0 ∧ r.arena.get? slot = es.stored? p begun slot := by
  have count := List.count_pos_iff.mpr left
  have reads := h.reads slot
  exact ⟨by omega, by rw [h.found, if_pos (by omega)]⟩

/-- Arguments that somebody reads, and results that were kept, have been put in their slots. -/
theorem History.stored?_isSome (sound : p.Sound) (h : begun.Begun p)
    (alive : ∀ i ∈ es.kept, p.isLive i = true) (full : p.Full es.kept slot)
    (read : p.consumers slot ≠ 0) : (es.stored? p begun slot).isSome = true := by
  unfold History.stored?
  rcases full with inside | ⟨i, mem, rfl⟩
  · have produced : p.graph.producer? slot = none := by simp [Graph.producer?, inside]
    rw [produced]
    exact h.argument slot inside read
  · rw [Graph.producer?_outputSlot (sound.live_lt i (alive i mem))]
    obtain ⟨s, found, rfl⟩ := List.mem_map.mp mem
    rw [Option.isSome_iff_ne_none]
    intro absent
    exact (bne_iff_ne.mp (List.lookup_eq_none_iff.mp absent s found)) rfl

/-- A node that a worker has in hand finds all its inputs, as long as it owes their reads. -/
theorem Course.furnished (sound : p.Sound) (h : begun.Begun p)
    (course : Course p begun r es hands owed) (held : i ∈ hands)
    (reads : ∀ slot ∈ p.graph.inputsOf i, slot ∈ owed) : r.Furnished p.graph i := by
  intro slot read
  have standing := (course.accounts sound h.toFresh).standing
  have left : slot ∈ p.readsLeft r.dispatch.started owed :=
    List.mem_append_left _ (List.mem_append_right _ (reads slot read))
  obtain ⟨consumed, found⟩ := (course.shelves sound h).get?_eq left
  rw [found]
  refine History.stored?_isSome sound h (course.accounts sound h.toFresh).kept_live ?_ consumed
  have inside := (sound.wired.inputs_lt i slot read).2
  cases produced : p.graph.producer? slot with
  | none => exact .inl (Plan.producer?_eq_none inside sound.wired produced)
  | some j =>
      have producer : j ∈ p.graph.producersOf i := List.mem_filterMap.mpr ⟨slot, read, produced⟩
      have free := standing.free i (standing.started_of_hands held)
      exact .inr ⟨j, List.mem_reverse.mp (Graph.waiting_eq_zero.mp free j producer),
        (Plan.producer?_lt produced).2⟩

/-- When nothing is left to do, the arena holds what was asked for, and nothing else. -/
theorem Course.holds_requested (sound : p.Sound) (h : begun.Begun p)
    (course : Course p begun r es [] []) (none_ : r.dispatch.remaining = 0) :
    ∀ slot, (r.arena.get? slot).isSome = true ↔ slot ∈ p.requestedSlots := by
  have standing := (course.accounts sound h.toFresh).standing
  have shelves := course.shelves sound h
  have all := standing.all_done sound none_
  have left : p.readsLeft r.dispatch.started [] = p.requestedSlots :=
    Plan.readsLeft_eq_requestedSlots fun i alive =>
      standing.started_of_done (all.mem_iff.mpr alive)
  intro slot
  constructor
  · intro there
    have reads := shelves.reads slot
    rw [shelves.found] at there
    rw [left] at reads
    refine List.count_pos_iff.mp (Nat.pos_of_ne_zero fun none_ => ?_)
    rw [if_neg (by omega)] at there
    contradiction
  · intro asked
    obtain ⟨consumed, found⟩ := shelves.get?_eq (left ▸ asked)
    rw [found]
    refine History.stored?_isSome sound h (course.accounts sound h.toFresh).kept_live ?_ consumed
    obtain ⟨q, mem, rfl⟩ := List.mem_map.mp asked
    have full := Ledger.requested_full sound all q mem
    exact full.imp_right fun ⟨i, mem, same⟩ => ⟨i, List.mem_reverse.mp mem, same⟩

end Found

/-! ## collecting -/

/-- A buffer that is not given back is missed by its device. -/
theorem Resources.exists_of_toHost {b : Buffer} {s : Resources} {err : RunError}
    (h : (s.toHost b).1 = .error err) : ∃ cause, err = .device cause := by
  unfold Resources.toHost at h
  split at h
  · contradiction
  · exact ⟨_, (Except.error.inj h).symm⟩
  · obtain ⟨cause, -, same⟩ := Except.exists_of_mapError h
    exact ⟨cause, same.symm⟩

theorem Resources.sparesGraph_toHost {b : Buffer} {s : Resources} {err : RunError}
    (h : (s.toHost b).1 = .error err) : err.SparesGraph := by
  obtain ⟨cause, rfl⟩ := Resources.exists_of_toHost h
  exact nofun

/-- Requested values that are in their slots are collected one by one, each of which empties its slot, up
to one that its device does not give back. -/
theorem Run.collect_spec {rest : List (ValueId × Nat)} {r : Run}
    (distinct : (rest.map (·.2)).Nodup)
    (there : ∀ slot ∈ rest.map (·.2), (r.arena.get? slot).isSome = true) :
    Settles (fun _ => ∀ slot, (Run.collect rest r).2.arena.get? slot =
        if slot ∈ rest.map (·.2) then none else r.arena.get? slot)
      RunError.SparesGraph (Run.collect rest r).1 := by
  induction rest generalizing r with
  | nil => exact fun _ => rfl
  | cons q rest ih =>
      obtain ⟨v, slot⟩ := q
      obtain ⟨fresh, distinct'⟩ := List.nodup_cons.mp distinct
      obtain ⟨here, others⟩ := List.forall_mem_cons.mp there
      obtain ⟨b, found⟩ := Option.isSome_iff_exists.mp here
      have took : r.arena.take slot = (some b, (r.arena.take slot).2) := by
        rw [← found, ← Arena.fst_take]
      simp only [Run.collect]
      rw [took]
      dsimp only
      cases copied : (r.resources.toHost b).1 with
      | error err => exact Resources.sparesGraph_toHost copied
      | ok x =>
          dsimp only
          generalize next : ({ r with
            arena := (r.arena.take slot).2
            resources := (r.resources.toHost b).2.drop [b] } : Run) = r'
          have taken (t : Nat) : r'.arena.get? t = if t = slot then none else r.arena.get? t := by
            rw [← next]
            exact r.arena.get?_take slot t
          have rest' := ih (r := r') distinct' fun t mem => by
            have apart : t ≠ slot := by
              rintro rfl
              exact fresh mem
            rw [taken, if_neg apart]
            exact others t mem
          cases collected : (Run.collect rest r').1 with
          | error err =>
              rw [collected] at rest'
              exact rest'
          | ok values =>
              rw [collected] at rest'
              intro t
              refine (rest' t).trans ?_
              rw [taken]
              by_cases later : t ∈ rest.map (·.2)
              · simp [later]
              · by_cases same : t = slot <;> simp [later, same]

end HomCircuit
