import HomCircuit.Proofs.Schedule.Crew

/-!
# HomCircuit.Proofs.Schedule.Returns

What a call may come to, over all ways in which its workers take turns.

```
bind refused  →  the error          all workers gone  →  the requested values, or the failure
```

* `Plan.MayReturn` — the answers that some interleaving of the call leads to;
* `Ledger.collects` — the requested values are found in their slots, and nothing is left behind;
* `Plan.MayReturn.conducted` — a call that is not refused answers all requested values, each of which
  belongs into its slot, or it was cancelled, or a node failed as its backend may.
-/

namespace HomCircuit

/-- An answer of a call: values or an error, the trace, and the resources that are left. -/
abbrev Answer : Type := Except RunError (List (ValueId × Value)) × Trace × Resources

/-- The workers of a call once its arguments are in place. -/
def Plan.crew (run : Run) (workers : Nat) : Crew :=
  Crew.initial run (min (max workers 1) run.dispatch.remaining)

/-- The answers that a call may give: its arguments are refused, or its workers take turns in some
way until all of them are gone. -/
inductive Plan.MayReturn (p : Plan) (e : Environment) (workers : Nat)
    (supplied : List (ValueId × Value)) (resources : Resources) : Answer → Prop
  | refused {err : RunError} {run : Run}
      (bound : Run.bind e p supplied p.graph.arguments.toList (Run.initial p resources) =
        (.error err, run)) :
      p.MayReturn e workers supplied resources (run.finish p (.error err))
  | finished {run : Run} (ms : List Move)
      (bound : Run.bind e p supplied p.graph.arguments.toList (Run.initial p resources) =
        (.ok (), run))
      (gone : ((Plan.crew run workers).moves e p ms).allGone = true) :
      p.MayReturn e workers supplied resources
        (((Plan.crew run workers).moves e p ms).run.finish p (.ok ()))

section Begin

variable {e : Environment} {p : Plan} {C : Conduct e p} {supplied : List (ValueId × Value)}
  {resources : Resources} {run : Run}

/-- All reads of a call are of slots that exist. -/
theorem Plan.Sound.reads_lt (sound : p.Sound) : ∀ slot ∈ p.readsLeft [] [], slot < p.graph.slotCount := by
  intro slot mem
  simp only [Plan.readsLeft, List.append_nil, List.mem_append, List.mem_flatMap] at mem
  rcases mem with ⟨i, -, read⟩ | requested
  · exact (sound.wired.inputs_lt i slot read).2
  · obtain ⟨q, mem, rfl⟩ := List.mem_map.mp requested
    exact (Graph.valueAt_of_slot? (sound.slots q mem)).1

theorem Plan.consumers_eq_readsLeft (p : Plan) (slot : Nat) :
    p.consumers slot = (p.readsLeft [] []).count slot := by
  rw [Plan.consumers_eq_count, Plan.reads, Plan.readsLeft, List.append_nil]
  simp

/-- Arguments are put in place without the resources. -/
theorem Run.resources_bind (supplied : List (ValueId × Value))
    (arguments : List (ValueId × PartitionId)) (r : Run) :
    (Run.bind e p supplied arguments r).2.resources = r.resources := by
  induction arguments generalizing r with
  | nil => rfl
  | cons a rest ih =>
      unfold Run.bind
      split
      · rfl
      · split
        · exact ih r
        · split
          · rfl
          · exact ih _

/-- The ledger of a call whose arguments are in place. -/
theorem Ledger.initial (sound : p.Sound) (kept : C.kept [] resources)
    (admits : Stock.Admits e p supplied C.good)
    (bound : Run.bind e p supplied p.graph.arguments.toList (Run.initial p resources) =
      (.ok (), run)) : ∃ shelf, Ledger C run shelf [] [] [] [] [] := by
  obtain ⟨⟨shelf, stock, host⟩, same⟩ :=
    Stock.bind sound.wired sound.reads_lt p.consumers_eq_readsLeft admits bound
  refine ⟨shelf, ?_⟩
  rw [same]
  exact
    { kept := by
        rw [host]
        exact kept
      standing := Dispatch.Standing.initial p
      stock := stock.congr fun slot _ => by simp [Plan.Full]
      given := by simp
      trace := by simp [Run.initial, Dispatch.initial]
      blame := by simp [Run.initial, Dispatch.initial] }

/-- The ledger of the workers of a call, however they have taken turns. -/
theorem Ledger.crew (sound : p.Sound) (kept : C.kept [] resources)
    (admits : Stock.Admits e p supplied C.good)
    (bound : Run.bind e p supplied p.graph.arguments.toList (Run.initial p resources) =
      (.ok (), run)) (workers : Nat) (ms : List Move) :
    ((Plan.crew run workers).moves e p ms).Valid C := by
  obtain ⟨shelf, ledger⟩ := Ledger.initial sound kept admits bound
  refine (Crew.Valid.initial ledger fun none => .inr ?_).moves sound ms
  omega

end Begin

/-! ## collecting the results -/

section Collect

variable {e : Environment} {p : Plan} {C : Conduct e p}

/-- Once all live nodes have started and no worker owes a read, only the caller is going to read. -/
theorem Plan.readsLeft_eq_requestedSlots {started : List Nat}
    (all : ∀ i ∈ p.liveIndices, i ∈ started) : p.readsLeft started [] = p.requestedSlots := by
  have none_ : p.liveIndices.filter (fun i => decide (i ∉ started)) = [] :=
    List.filter_eq_nil_iff.mpr fun i mem => by simp [all i mem]
  rw [Plan.readsLeft, none_]
  rfl

/-- A value that is on the host is collected as it is, and its slot is empty from then on. -/
theorem Run.collect_cons {v : ValueId} {slot : Nat} {rest : List (ValueId × Nat)} {r : Run}
    {b : Buffer} {x : Value} (found : r.arena.get? slot = some b) (host : b.payload = .host x) :
    Run.collect ((v, slot) :: rest) r =
      ((Run.collect rest { r with arena := (r.arena.take slot).2 }).1.map ((v, x) :: ·),
        (Run.collect rest { r with arena := (r.arena.take slot).2 }).2) := by
  have took : r.arena.take slot = (some b, (r.arena.take slot).2) := by
    rw [← found, ← Arena.fst_take]
  have copy : r.resources.toHost b = (.ok x, r.resources) := by
    simp [Resources.toHost, Buffer.hostValue?, host]
  simp only [Run.collect]
  rw [took]
  simp only [copy, Resources.drop_host _ host]

/-- A value that is not in its slot is not collected. -/
theorem Run.collect_none (v : ValueId) {slot : Nat} (rest : List (ValueId × Nat)) {r : Run}
    (absent : r.arena.get? slot = none) :
    ∃ err, (Run.collect ((v, slot) :: rest) r).1 = .error err := by
  have took : r.arena.take slot = (none, (r.arena.take slot).2) := by
    rw [← absent, ← Arena.fst_take]
  simp only [Run.collect]
  rw [took]
  exact ⟨_, rfl⟩

/-- Requested values that are in their slots are collected one by one, and nothing is left. -/
theorem Run.collect_ok {rest : List (ValueId × Nat)} {r : Run} {shelf : List Shelved}
    {full : Nat → Prop} (stock : Stock p C.good r.arena shelf (rest.map (·.2)) full)
    (distinct : (rest.map (·.2)).Nodup)
    (there : ∀ q ∈ rest, q.2 ∈ p.requestedSlots ∧ full q.2) :
    ∃ values r', Run.collect rest r = (.ok values, r') ∧ r'.resources = r.resources ∧
      r'.trace = r.trace ∧ Stock p C.good r'.arena [] [] full ∧
      List.Forall₂ (fun q a => a.1 = q.1 ∧ C.good q.2 a.2 ∧
        ∃ b, r.arena.get? q.2 = some b ∧ b.payload = .host a.2) rest values := by
  induction rest generalizing r shelf with
  | nil =>
      obtain rfl := stock.eq_nil
      exact ⟨[], r, rfl, rfl, rfl, stock, .nil⟩
  | cons q rest ih =>
      obtain ⟨v, slot⟩ := q
      obtain ⟨fresh, distinct'⟩ := List.nodup_cons.mp distinct
      obtain ⟨⟨asked, here⟩, others⟩ := List.forall_mem_cons.mp there
      obtain ⟨x, mem, rfl⟩ := stock.value here List.mem_cons_self
      obtain ⟨-, value, host, good⟩ := (stock.fits x mem).host asked
      have found := stock.found x mem
      obtain ⟨shelf', -, taken⟩ := stock.take mem fresh
      obtain ⟨values, r', collected, resources, trace, left, fits⟩ :=
        ih (r := { r with arena := (r.arena.take x.slot).2 }) taken distinct' others
      refine ⟨(v, value) :: values, r', ?_, resources, trace, left,
        .cons ⟨rfl, good, x.buffer, found, host⟩ (fits.imp ?_)⟩
      · rw [Run.collect_cons found host, collected]
        rfl
      · rintro q a ⟨name, good', b, found', host'⟩
        rw [Arena.get?_take] at found'
        split at found'
        · contradiction
        · exact ⟨name, good', b, found', host'⟩

end Collect

/-! ## the answer of a call -/

section Sound

variable {e : Environment} {p : Plan} {supplied : List (ValueId × Value)} {resources : Resources}
  {workers : Nat} {answer : Answer}

/-- What a call that kept to the conduct of its backend tells its caller. -/
def Answer.Keeps (C : Conduct e p) (answer : Answer) : Prop :=
  C.kept [] answer.2.2 ∧
    match answer.1 with
    | .ok values =>
      List.Forall₂ (fun q a => a.1 = q.1 ∧ C.good q.2 a.2) p.requested values ∧
        (∀ i, p.isLive i = true → ∃ v, C.good (p.graph.outputSlot i) v) ∧
        (p.options.deterministic = true →
          answer.2.1.started = p.order.map fun i => (p.graph.node i).id)
    | .error err =>
      ∃ f : Failure, ∃ skipped, f.Blames p C.bad ∧ err = .graphCancelled f.error f.node skipped

variable {C : Conduct e p} {r : Run} {shelf : List Shelved} {done lost : List Nat}

/-- A call that has failed tells why, and gives everything back. -/
theorem Ledger.finish_failed (l : Ledger C r shelf [] [] [] done lost) {f : Failure}
    (failed : r.dispatch.failure = some f) : Answer.Keeps C (r.finish p (.ok ())) := by
  refine ⟨?_, ?_⟩
  · simp only [Run.finish, failed]
    obtain ⟨left, same, cleared⟩ := l.stock.clear
    rw [cleared]
    refine C.dropped (fun x mem => l.stock.fits x (same.mem_iff.mpr mem)) (C.perm _ _ _ ?_ l.kept)
    rw [List.append_nil]
    exact same.flatMap_right _
  · simp only [Run.finish, failed]
    exact ⟨f, _, l.blame f failed, rfl⟩

/-- The values that were asked for are in their slots when all live nodes are done. -/
theorem Ledger.requested_full (sound : p.Sound) (all : done.Perm p.liveIndices) :
    ∀ q ∈ p.requested, p.Full done q.2 := by
  intro q mem
  have asked : q.2 ∈ p.requestedSlots := List.mem_map.mpr ⟨q, mem, rfl⟩
  have inside := (Graph.valueAt_of_slot? (sound.slots q mem)).1
  rw [sound.wired.slotCount] at inside
  by_cases argument : q.2 < p.graph.arguments.size
  · exact .inl argument
  · have produced : p.graph.producer? q.2 = some (q.2 - p.graph.arguments.size) := by
      simp [Graph.producer?, argument, inside]
    obtain ⟨lt, slot⟩ := Plan.producer?_lt produced
    have alive := sound.requested_live q.2 asked _ produced
    exact .inr ⟨_, all.mem_iff.mpr (Plan.mem_liveIndices.mpr ⟨lt, alive⟩), slot⟩

/-- A call that has nothing left to do collects what was asked for from the slots where it is, and
then no buffer is left. -/
theorem Ledger.collects (sound : p.Sound) (l : Ledger C r shelf [] [] [] done lost)
    (none : r.dispatch.remaining = 0) :
    ∃ values r', Run.collect p.requested r = (.ok values, r') ∧ r'.resources = r.resources ∧
      r'.trace = r.trace ∧ r'.arena.clear.1 = [] ∧ C.kept [] r.resources ∧
      List.Forall₂ (fun q a => a.1 = q.1 ∧ C.good q.2 a.2 ∧
        ∃ b, r.arena.get? q.2 = some b ∧ b.payload = .host a.2) p.requested values := by
  have all := l.standing.all_done sound none
  have stock := l.stock
  rw [Plan.readsLeft_eq_requestedSlots fun i alive =>
    l.standing.started_of_done (all.mem_iff.mpr alive)] at stock
  obtain ⟨values, r', collected, resources, trace, left, fits⟩ := Run.collect_ok stock sound.distinct
    fun q mem => ⟨List.mem_map.mpr ⟨q, mem, rfl⟩, Ledger.requested_full sound all q mem⟩
  obtain ⟨nothing, same, cleared⟩ := left.clear
  obtain rfl := same.symm.eq_nil
  have kept := l.kept
  rw [stock.deposited_eq_nil fun slot mem => mem] at kept
  exact ⟨values, r', collected, resources, trace, cleared, kept, fits⟩

/-- A call that is well and has nothing left answers what was asked for. -/
theorem Ledger.finish_ok (sound : p.Sound) (l : Ledger C r shelf [] [] [] done lost)
    (healthy : r.dispatch.failure = none) (none : r.dispatch.remaining = 0) :
    Answer.Keeps C (r.finish p (.ok ())) := by
  have all := l.standing.all_done sound none
  obtain ⟨values, r', collected, resources, trace, cleared, kept, fits⟩ :=
    l.collects sound none
  refine ⟨?_, ?_⟩
  · simp only [Run.finish, healthy, collected, cleared, Resources.drop_nil, resources]
    exact kept
  · simp only [Run.finish, healthy, collected]
    refine ⟨fits.imp fun q a fit => ⟨fit.1, fit.2.1⟩, fun i alive => ?_, fun fixed => ?_⟩
    · exact l.given i (all.mem_iff.mpr (Plan.mem_liveIndices.mpr ⟨sound.live_lt i alive, alive⟩))
    · rw [trace, l.trace, l.standing.started_eq sound healthy none fixed]

/-- Once all workers are gone, what a call answers keeps to the conduct of its backend. -/
theorem Crew.Valid.finish (sound : p.Sound) {c : Crew} (v : c.Valid C) (gone : c.allGone = true) :
    Answer.Keeps C (c.run.finish p (.ok ())) := by
  obtain ⟨shelf, done, lost, ledger, past⟩ := v.finished gone
  generalize c.run = r at ledger past
  cases failed : r.dispatch.failure with
  | some f => exact ledger.finish_failed failed
  | none => exact ledger.finish_ok sound failed (past.resolve_left fun h => h failed)

/-- Whatever a call whose arguments were accepted may answer keeps to the conduct of its backend. -/
theorem Plan.MayReturn.conducted (sound : p.Sound) (kept : C.kept [] resources)
    (admits : Stock.Admits e p supplied C.good) {run : Run}
    (bound : Run.bind e p supplied p.graph.arguments.toList (Run.initial p resources) =
      (.ok (), run)) (h : p.MayReturn e workers supplied resources answer) : answer.Keeps C := by
  cases h with
  | refused bound' => simp [bound] at bound'
  | finished ms bound' gone =>
      exact (Ledger.crew sound kept admits bound' workers ms).finish sound gone

/-- Under a discipline, whatever a call whose arguments were accepted may answer keeps it. -/
theorem Plan.MayReturn.keeps {D : Discipline e p} (sound : p.Sound) (kept : D.kept resources)
    (admits : Stock.Admits e p supplied D.good) {run : Run}
    (bound : Run.bind e p supplied p.graph.arguments.toList (Run.initial p resources) =
      (.ok (), run)) (h : p.MayReturn e workers supplied resources answer) :
    answer.Keeps D.conduct :=
  h.conducted (C := D.conduct) sound ⟨rfl, kept⟩ admits bound

end Sound

end HomCircuit
