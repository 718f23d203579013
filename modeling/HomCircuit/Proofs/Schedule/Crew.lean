import HomCircuit.Proofs.Schedule.Ledger

/-!
# HomCircuit.Proofs.Schedule.Crew

The workers of a call, and what their ledger says together.

```
idle  →  performing i  →  retiring i  →  leaving  →  idle            idle  →  gone
```

A worker that performs or retires a node has that node in hand and owes the reads that it has not
ended; what it has deposited on devices is its own until then. One move of a worker concerns its own part of the ledger alone.

* `Thread.move` — one section of one worker, on the state that all share;
* `Phase` — where a worker is, with what it has in hand and the reads that it owes;
* `Crew.Valid` — the ledger of all workers, which every move keeps (`Crew.Valid.moves`).
-/

namespace HomCircuit

/-! ## one section of one worker -/

/-- One section of a worker: the state after it, and what the worker is doing then. -/
def Thread.move (e : Environment) (p : Plan) (r : Run) : Thread → Run × Thread
  | .gone => (r, .gone)
  | .idle =>
    match r.next e p with
    | (.start i, r') => (r', .busy i (nodeJob e p i))
    | (.wait, r') => (r', .idle)
    | (.stop, r') => (r', .gone)
  | .busy _ (.done ()) => (r, .idle)
  | .busy i (.step act next) => ((act r).2, .busy i (next (act r).1))
  | .busy i (.await ready next) => (r, if ready r then .busy i next else .busy i (.await ready next))
  | .busy i (.announce calls next) => (r.announce e calls, .busy i next)

/-- A move of a worker in a crew is a section of the worker. -/
theorem Crew.advance_eq (e : Environment) (p : Plan) {c : Crew} {k : Nat} {t : Thread}
    (h : c.threads[k]? = some t) :
    c.advance e p k t = c.update k (t.move e p c.run).1 (t.move e p c.run).2 := by
  have stay : c.update k c.run t = c := by
    obtain ⟨inside, rfl⟩ := List.getElem?_eq_some_iff.mp h
    simp [Crew.update]
  match t with
  | .gone => exact stay.symm
  | .idle =>
      simp only [Crew.advance, Thread.move]
      split <;> simp_all
  | .busy _ (.done ()) => rfl
  | .busy i (.step act next) => rfl
  | .busy i (.await ready next) =>
      simp only [Crew.advance, Thread.move]
      split
      · rfl
      · exact stay.symm
  | .busy i (.announce calls next) => rfl

/-! ## phases -/

/-- Where a worker is. -/
inductive Phase
  | idle
  /-- Its node is running, with its inputs and what it has in hand. -/
  | performing (i : Nat) (inputs : List Shelved) (own : List Deposit)
  /-- Its node has run; some reads are still to be ended, and then the result is settled. -/
  | retiring (i : Nat) (owed : List Nat) (own : List Deposit) (done : Performed)
  /-- Its node is settled. -/
  | leaving
  | gone

/-- No live node waits for anything while it runs. -/
def Plan.NeverWaits (p : Plan) (e : Environment) : Prop :=
  ∀ i, p.isLive i = true → (perform e p i).Direct

namespace Phase

/-- The nodes that a worker has in hand. -/
def hands : Phase → List Nat
  | .performing i _ _ => [i]
  | .retiring i _ _ _ => [i]
  | _ => []

/-- The reads that a worker owes. -/
def owed (g : Graph) : Phase → List Nat
  | .performing i _ _ => g.inputsOf i
  | .retiring _ owed _ _ => owed
  | _ => []

/-- What a worker has deposited on devices. -/
def own : Phase → List Deposit
  | .performing _ _ own => own
  | .retiring _ _ own _ => own
  | _ => []

/-- The buffers that a worker relies on. -/
def inputs : Phase → List Shelved
  | .performing _ inputs _ => inputs
  | _ => []

variable {e : Environment} {p : Plan} (C : Conduct e p)

/-- What a worker in a phase is doing. -/
def At : Phase → Thread → Prop
  | .idle, .idle => True
  | .performing i inputs own, .busy _ job =>
    inputs.map Shelved.slot = p.graph.inputsOf i ∧
      ∃ rest : Job Run Performed, job = rest >>= retire p i ∧ (p.NeverWaits e → rest.Direct) ∧
        rest.Tracks (Run.Ready C.kept inputs) (Run.Trades C.kept)
          (Performed.Gives p C.kept C.good C.bad i) own
  | .retiring i owed own done, .busy _ job =>
    done.Gives p C.kept C.good C.bad i own ∧
      job = (releaseAll owed >>= fun _ => Job.change (Run.complete p i done))
  | .leaving, .busy _ (.done ()) => True
  | .gone, .gone => True
  | _, _ => False

variable {C}

/-- A worker owes reads of all buffers that it relies on. -/
theorem At.slot_mem_owed {ph : Phase} {t : Thread} (here : ph.At C t) {x : Shelved}
    (mem : x ∈ ph.inputs) : x.slot ∈ ph.owed p.graph := by
  cases ph with
  | performing i inputs own =>
      cases t with
      | busy j job =>
          change x.slot ∈ p.graph.inputsOf i
          rw [← here.1]
          exact List.mem_map.mpr ⟨x, mem, rfl⟩
      | idle => exact here.elim
      | gone => exact here.elim
  | _ => exact absurd mem List.not_mem_nil

end Phase

/-! ## what no section takes back -/

/-- A later state of a call: what has started stays started, and what is over stays over. -/
structure Run.Follows (r r' : Run) : Prop where
  past : r.Over → r'.Over
  started : r.dispatch.started.length ≤ r'.dispatch.started.length

section Follows

variable {r : Run}

theorem Run.Follows.refl (r : Run) : r.Follows r := ⟨id, le_refl _⟩

theorem Run.Follows.trans {r₁ r₂ r₃ : Run} (h : r₁.Follows r₂) (h' : r₂.Follows r₃) :
    r₁.Follows r₃ :=
  ⟨h'.past ∘ h.past, h.started.trans h'.started⟩

theorem Run.Trades.follows {kept : List Deposit → Resources → Prop} {own own' : List Deposit}
    {r' : Run} (h : Run.Trades kept own own' r r') : r.Follows r' := by
  rw [h.2]
  exact ⟨id, le_refl _⟩

theorem Run.follows_complete (p : Plan) (i : Nat) (done : Performed) (r : Run) :
    r.Follows (r.complete p i done) := by
  unfold Run.complete
  cases done.result with
  | error err =>
      refine ⟨fun _ => .inl ?_, le_refl _⟩
      cases failed : r.dispatch.failure <;> simp [Dispatch.fail, failed]
  | ok b =>
      by_cases failed : r.dispatch.failure.isSome
      · simp only [if_pos failed]
        exact ⟨fun _ => .inl (Option.isSome_iff_ne_none.mp failed), le_refl _⟩
      · simp only [if_neg failed, Dispatch.succeed, Dispatch.foldl_resolve]
        refine ⟨fun past => past.imp id fun none => ?_, le_refl _⟩
        simp [none]

theorem Run.follows_notice (r : Run) (cancelled : Bool) :
    r.Follows { r with dispatch := r.dispatch.notice cancelled } := by
  unfold Dispatch.notice
  split
  · exact ⟨fun _ => .inl (by simp), le_refl _⟩
  · exact .refl r

end Follows

/-! ## one worker -/

variable {e : Environment} {p : Plan} {C : Conduct e p} {r : Run} {shelf : List Shelved}
  {frame : List Deposit} {hands owed done lost : List Nat}

/-- What a section of a worker in one phase leads to: another phase with a ledger that fits it, and
a later state of the call, in which the others find the buffers that they rely on. -/
def Phase.LeadsTo (C : Conduct e p) (r : Run) (shelf : List Shelved) (frame : List Deposit)
    (hands owed : List Nat) (after : Run × Thread) : Prop :=
  ∃ (next : Phase) (shelf' : List Shelved) (done lost : List Nat), next.At C after.2 ∧
    Ledger C after.1 shelf' (next.own ++ frame) (next.hands ++ hands) (next.owed p.graph ++ owed)
      done lost ∧
    (∀ x ∈ next.inputs, x ∈ shelf') ∧ Ledger.Stays shelf shelf' owed ∧
    r.Follows after.1 ∧ (next = .gone → after.1.Over)

/-- A worker that retires a node ends a read or settles the node. -/
theorem Phase.retiring_move (sound : p.Sound) {i j : Nat} {reads : List Nat} {own : List Deposit}
    {ended : Performed} (gives : ended.Gives p C.kept C.good C.bad i own)
    (l : Ledger C r shelf (own ++ frame) (i :: hands) (reads ++ owed) done lost) :
    Phase.LeadsTo C r shelf frame hands owed
      ((Thread.busy j (releaseAll reads >>= fun _ => Job.change (Run.complete p i ended))).move e p
        r) := by
  cases reads with
  | nil =>
      obtain ⟨shelf', done', lost', settled, stays⟩ := l.complete sound gives
      exact ⟨.leaving, shelf', done', lost', trivial, settled, nofun, stays,
        Run.follows_complete p i ended r, nofun⟩
  | cons slot rest =>
      obtain ⟨shelf', released, stays⟩ := l.release
      exact ⟨.retiring i rest own ended, shelf', done, lost, ⟨gives, rfl⟩, released, nofun,
        fun x mem read => stays x mem (List.mem_append_right _ read), ⟨id, le_refl _⟩, nofun⟩

/-- A worker that performs a node runs a section of it, or begins to retire it. -/
theorem Phase.performing_move (sound : p.Sound) {i j : Nat} {inputs : List Shelved}
    {own : List Deposit} {rest : Job Run Performed}
    (slots : inputs.map Shelved.slot = p.graph.inputsOf i) (direct : p.NeverWaits e → rest.Direct)
    (tracks : rest.Tracks (Run.Ready C.kept inputs) (Run.Trades C.kept)
      (Performed.Gives p C.kept C.good C.bad i) own)
    (there : ∀ x ∈ inputs, x ∈ shelf)
    (l : Ledger C r shelf (own ++ frame) (i :: hands) (p.graph.inputsOf i ++ owed) done lost) :
    Phase.LeadsTo C r shelf frame hands owed ((Thread.busy j (rest >>= retire p i)).move e p r) := by
  have stays : Ledger.Stays shelf shelf owed := fun _ mem _ => mem
  cases rest with
  | done ended => exact Phase.retiring_move sound tracks l
  | step act next =>
      obtain ⟨own', trades, tracks'⟩ := tracks r (l.ready there)
      exact ⟨.performing i inputs own', shelf, done, lost,
        ⟨slots, next (act r).1, rfl, fun calm => direct calm _, tracks'⟩, l.change trades, there,
        stays, trades.follows, nofun⟩
  | await ready next =>
      change Phase.LeadsTo C r shelf frame hands owed (r, if ready r = true
        then .busy j (next >>= retire p i) else .busy j (Job.await ready next >>= retire p i))
      refine ⟨.performing i inputs own, shelf, done, lost, ?_, l, there, stays, .refl r, nofun⟩
      by_cases now : ready r = true
      · rw [if_pos now]
        exact ⟨slots, next, rfl, fun calm => (direct calm).elim, tracks⟩
      · rw [if_neg now]
        exact ⟨slots, .await ready next, rfl, direct, tracks⟩
  | announce calls next =>
      exact ⟨.performing i inputs own, shelf, done, lost, ⟨slots, next, rfl, direct, tracks⟩,
        l.announce calls, there, stays, ⟨id, le_refl _⟩, nofun⟩

/-- An idle worker gets a node, waits, or goes. -/
theorem Phase.idle_move (sound : p.Sound) (l : Ledger C r shelf frame hands owed done lost) :
    Phase.LeadsTo C r shelf frame hands owed (Thread.idle.move e p r) := by
  have stays : Ledger.Stays shelf shelf owed := fun _ mem _ => mem
  simp only [Thread.move, Run.next]
  generalize r.resources.cancellation.isCancelled e.token = cancelled
  rcases Dispatch.next_cases p r.dispatch cancelled with
    ⟨told, past⟩ | ⟨healthy, more, ⟨i, d', found, told⟩ | ⟨-, told⟩⟩
  · rw [told]
    have past' : Run.Over { r with dispatch := r.dispatch.notice cancelled } := by
      refine past.imp_right fun none => ?_
      unfold Dispatch.notice
      split <;> exact none
    exact ⟨.gone, shelf, done, lost, trivial, l.look cancelled, nofun, stays,
      r.follows_notice cancelled, fun _ => past'⟩
  · rw [told]
    have alive := (l.standing.candidate sound found).1
    have begun := l.start sound found
    obtain ⟨inputs, supplies, there⟩ := begun.supplied sound List.mem_cons_self
      fun slot read => List.mem_append_left owed read
    refine ⟨.performing i inputs [], shelf, done, lost,
      ⟨supplies.slots, perform e p i, rfl, fun calm => calm i alive, C.perform i alive inputs supplies⟩,
      begun, there, stays, ⟨fun past => ?_, ?_⟩, nofun⟩
    · exact absurd past (by simp [Run.Over, healthy, more])
    · simp [(l.standing.start sound found).2.1]
  · rw [told]
    exact ⟨.idle, shelf, done, lost, trivial, l, nofun, stays, .refl r, nofun⟩

/-- One section of a worker concerns its own part of the ledger alone. -/
theorem Phase.At.move (sound : p.Sound) {ph : Phase} {t : Thread} (here : ph.At C t)
    (there : ∀ x ∈ ph.inputs, x ∈ shelf)
    (l : Ledger C r shelf (ph.own ++ frame) (ph.hands ++ hands) (ph.owed p.graph ++ owed) done lost)
    (gone : ph = .gone → r.Over) : Phase.LeadsTo C r shelf frame hands owed (t.move e p r) := by
  have stays : Ledger.Stays shelf shelf owed := fun _ mem _ => mem
  cases ph with
  | idle =>
      cases t with
      | idle => exact Phase.idle_move sound l
      | busy j job => exact here.elim
      | gone => exact here.elim
  | performing i inputs own =>
      cases t with
      | idle => exact here.elim
      | busy j job =>
          obtain ⟨slots, rest, rfl, direct, tracks⟩ := here
          exact Phase.performing_move sound slots direct tracks there l
      | gone => exact here.elim
  | retiring i reads own ended =>
      cases t with
      | idle => exact here.elim
      | busy j job =>
          obtain ⟨gives, rfl⟩ := here
          exact Phase.retiring_move sound gives l
      | gone => exact here.elim
  | leaving =>
      match t, here with
      | .busy j (.done ()), _ =>
          exact ⟨.idle, shelf, done, lost, trivial, l, nofun, stays, .refl r, nofun⟩
  | gone =>
      cases t with
      | idle => exact here.elim
      | busy j job => exact here.elim
      | gone =>
          exact ⟨.gone, shelf, done, lost, trivial, l, nofun, stays, .refl r, fun _ => gone rfl⟩

/-! ## all workers -/

/-- Every worker is in its phase. -/
structure Manned (C : Conduct e p) (phases : List Phase) (threads : List Thread) : Prop where
  length : phases.length = threads.length
  here : ∀ (k : Nat) (ph : Phase) (t : Thread), phases[k]? = some ph → threads[k]? = some t →
    ph.At C t

/-- One worker gets to another phase. -/
theorem Manned.set {phases : List Phase} {threads : List Thread} (m : Manned C phases threads)
    {ph : Phase} {t : Thread} (here : ph.At C t) (k : Nat) :
    Manned C (phases.set k ph) (threads.set k t) where
  length := by simpa using m.length
  here := by
    intro j ph' t' found found'
    rw [List.getElem?_set] at found found'
    by_cases same : k = j
    · rw [if_pos same] at found found'
      split at found
      · split at found'
        · obtain rfl := Option.some.inj found
          obtain rfl := Option.some.inj found'
          exact here
        · contradiction
      · contradiction
    · rw [if_neg same] at found found'
      exact m.here j ph' t' found found'

/-- Every phase is that of some worker. -/
theorem Manned.exists_at {phases : List Phase} {threads : List Thread} (m : Manned C phases threads)
    {ph : Phase} (mem : ph ∈ phases) : ∃ t ∈ threads, ph.At C t := by
  obtain ⟨k, inside, rfl⟩ := List.getElem_of_mem mem
  have inside' : k < threads.length := by
    rw [← m.length]
    exact inside
  exact ⟨threads[k], List.getElem_mem inside',
    m.here k _ _ (List.getElem?_eq_getElem inside) (List.getElem?_eq_getElem inside')⟩

/-- What one worker adds to what the workers have together. -/
theorem perm_flatMap_eraseIdx {α β : Type*} (f : α → List β) {l : List α} {k : Nat} {a : α}
    (h : l[k]? = some a) : (l.flatMap f).Perm (f a ++ (l.eraseIdx k).flatMap f) := by
  obtain ⟨inside, rfl⟩ := List.getElem?_eq_some_iff.mp h
  exact (List.getElem_cons_eraseIdx_perm inside).symm.flatMap_right f

/-- What the workers have together once one of them has something else. -/
theorem perm_flatMap_set {α β : Type*} (f : α → List β) {l : List α} {k : Nat}
    (inside : k < l.length) (a : α) :
    (f a ++ (l.eraseIdx k).flatMap f).Perm ((l.set k a).flatMap f) :=
  (List.set_perm_cons_eraseIdx inside a).symm.flatMap_right f

/-- Workers that are all in a phase that adds nothing have nothing together. -/
theorem flatMap_eq_nil {α : Type} {phases : List Phase} {ph : Phase} {f : Phase → List α}
    (all : ∀ ph' ∈ phases, ph' = ph) (empty : f ph = []) : phases.flatMap f = [] :=
  List.flatMap_eq_nil_iff.mpr fun ph' mem => by rw [all ph' mem, empty]

namespace Crew

/-- The ledger of all workers, with the buffers that they rely on, and why some of them are gone, or
why there are none. -/
def Valid (C : Conduct e p) (c : Crew) : Prop :=
  ∃ phases shelf done lost, Manned C phases c.threads ∧
    Ledger C c.run shelf (phases.flatMap Phase.own) (phases.flatMap Phase.hands)
      (phases.flatMap (Phase.owed p.graph)) done lost ∧
    (∀ ph ∈ phases, ∀ x ∈ ph.inputs, x ∈ shelf) ∧
    (phases = [] ∨ .gone ∈ phases → c.run.Over)

/-- Workers that have not begun. -/
theorem Valid.initial {run : Run} (l : Ledger C run shelf [] [] [] [] []) {workers : Nat}
    (enough : workers = 0 → run.Over) : (Crew.initial run workers).Valid C := by
  have all : ∀ ph ∈ List.replicate workers Phase.idle, ph = .idle := fun ph mem =>
    (List.mem_replicate.mp mem).2
  refine ⟨List.replicate workers .idle, shelf, [], [], ⟨by simp [Crew.initial], ?_⟩, ?_, ?_, ?_⟩
  · intro k ph t found found'
    obtain ⟨-, rfl⟩ := List.mem_replicate.mp (List.mem_of_getElem? found)
    obtain ⟨-, rfl⟩ := List.mem_replicate.mp (List.mem_of_getElem? found')
    trivial
  · rw [flatMap_eq_nil all rfl, flatMap_eq_nil all rfl, flatMap_eq_nil all rfl]
    exact l
  · intro ph mem x relied
    rw [all ph mem] at relied
    contradiction
  · rintro (empty | mem)
    · exact enough (by simpa using empty)
    · have := all _ mem
      contradiction

/-- A move of a worker keeps the ledger. -/
theorem Valid.worker (sound : p.Sound) {c : Crew} (v : c.Valid C) (k : Nat) :
    (c.move e p (.worker k)).Valid C ∧ c.run.Follows (c.move e p (.worker k)).run := by
  obtain ⟨phases, shelf, done, lost, manned, ledger, relied, gone⟩ := v
  simp only [Crew.move]
  cases found : c.threads[k]? with
  | none => exact ⟨⟨phases, shelf, done, lost, manned, ledger, relied, gone⟩, .refl _⟩
  | some t =>
      obtain ⟨inside, -⟩ := List.getElem?_eq_some_iff.mp found
      have inside' : k < phases.length := by
        rw [manned.length]
        exact inside
      have foundPhase : phases[k]? = some phases[k] := List.getElem?_eq_getElem inside'
      have here := manned.here k _ t foundPhase found
      have own := ledger.perm (perm_flatMap_eraseIdx Phase.own foundPhase)
        (perm_flatMap_eraseIdx Phase.hands foundPhase)
        (perm_flatMap_eraseIdx (Phase.owed p.graph) foundPhase)
      obtain ⟨next, shelf', done', lost', here', ledger', relied', stays, follows, gone'⟩ :=
        here.move sound (relied _ (List.getElem_mem inside')) own
          fun last => gone (.inr (last ▸ List.getElem_mem inside'))
      have foundNext : (phases.set k next)[k]? = some next := by simp [inside']
      have rest : (phases.set k next).eraseIdx k = phases.eraseIdx k := by
        simp [List.eraseIdx_set_eq]
      simp only [Option.elim_some, Crew.advance_eq e p found]
      refine ⟨⟨phases.set k next, shelf', done', lost', manned.set here' k,
        ledger'.perm (perm_flatMap_set _ inside' _) (perm_flatMap_set _ inside' _)
          (perm_flatMap_set _ inside' _), fun ph mem => ?_, fun mem => ?_⟩, follows⟩
      · have split := (List.getElem_cons_eraseIdx_perm
          (List.getElem?_eq_some_iff.mp foundNext).1).mem_iff.mpr mem
        rw [rest, (List.getElem?_eq_some_iff.mp foundNext).2] at split
        rcases List.mem_cons.mp split with rfl | other
        · exact relied'
        · intro x mem
          have old := List.mem_of_mem_eraseIdx other
          obtain ⟨t', -, at_⟩ := manned.exists_at old
          exact stays x (relied ph old x mem)
            (List.mem_flatMap.mpr ⟨ph, other, at_.slot_mem_owed mem⟩)
      · rcases mem with empty | mem
        · have : phases = [] := by simpa using empty
          exact follows.past (gone (.inl this))
        · rcases List.mem_or_eq_of_mem_set mem with old | new
          · exact follows.past (gone (.inr old))
          · exact gone' new.symm

/-- Whatever else happens to the resources keeps the ledger, if it takes away nothing that is kept. -/
theorem Valid.onResources {c : Crew} (v : c.Valid C) {f : Resources → Resources}
    (kept : ∀ ds r, C.kept ds r → C.kept ds (f r)) :
    Valid C { c with run := { c.run with resources := f c.run.resources } } := by
  obtain ⟨phases, shelf, done, lost, manned, ledger, relied, gone⟩ := v
  exact ⟨phases, shelf, done, lost, manned, { ledger with kept := kept _ _ ledger.kept }, relied, gone⟩

/-- Somebody who cancels keeps the ledger. -/
theorem Valid.cancel {c : Crew} (v : c.Valid C) (f : Cancellation → Cancellation) :
    (c.cancel f).Valid C := v.onResources (C.withCancellation f)

/-- Every move keeps the ledger. -/
theorem Valid.move (sound : p.Sound) {c : Crew} (v : c.Valid C) (m : Move) :
    (c.move e p m).Valid C := by
  cases m with
  | worker k => exact (v.worker sound k).1
  | raise t => exact v.cancel _
  | cancelInFlight => exact v.cancel _

/-- Every interleaving keeps the ledger. -/
theorem Valid.moves (sound : p.Sound) {c : Crew} (v : c.Valid C) (ms : List Move) :
    (c.moves e p ms).Valid C := by
  induction ms generalizing c with
  | nil => exact v
  | cons m rest ih => exact ih (v.move sound m)

/-- When all workers are gone, none has a node in hand, deposits or owes a read. -/
theorem Valid.finished {c : Crew} (v : c.Valid C) (gone : c.allGone = true) :
    ∃ shelf done lost, Ledger C c.run shelf [] [] [] done lost ∧ c.run.Over := by
  obtain ⟨phases, shelf, done, lost, manned, ledger, -, past⟩ := v
  have all : ∀ ph ∈ phases, ph = .gone := by
    intro ph mem
    obtain ⟨t, mem', here⟩ := manned.exists_at mem
    have last := List.all_eq_true.mp gone t mem'
    cases t with
    | idle => contradiction
    | busy i job => contradiction
    | gone => cases ph <;> first | rfl | exact here.elim
  rw [flatMap_eq_nil all rfl, flatMap_eq_nil all rfl, flatMap_eq_nil all rfl] at ledger
  refine ⟨shelf, done, lost, ledger, past ?_⟩
  by_cases empty : phases = []
  · exact .inl empty
  · obtain ⟨ph, mem⟩ := List.exists_mem_of_ne_nil _ empty
    rw [← all ph mem]
    exact .inr mem

end Crew

end HomCircuit
