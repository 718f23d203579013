import HomCircuit.Proofs.Schedule.Accounting
import HomCircuit.Proofs.Schedule.Occurrence

/-!
# HomCircuit.Proofs.Schedule.Upkeep

What a call keeps of its resources, whatever its nodes come to.

```
sections of nodes    keys of its partitions fetched, remote workers used, devices used
ends of nodes        buffers dropped                   primitives     announced
from outside         cancellations                     devices        switched
```

Nothing has to be known of slots and buffers here: what is kept is kept by every section on its own.

* `Environment.Sustains` — what all sections of a call and all announcements keep;
* `Crew.Sustained` — it holds, and what workers are about to do keeps it;
* `Plan.MayEnd.sustains` — it holds when the call has ended, if what happens from outside keeps it, too;
* `Plan.uncancelled_execute` — a call by the clock that nobody cancels does not tell of a cancellation.
-/

namespace HomCircuit

/-- What all sections of a call, and all announcements, keep of resources, whatever is allocated and freed
on devices, and whichever of them are out of order. -/
structure Environment.Sustains (e : Environment) (P : Resources → Prop) : Prop where
  fetchKeys : ∀ q ∈ e.partitions.partitions, ∀ r, P r → P (r.fetchKeys q e.seed).2
  announce : ∀ c r, P r → P (r.announce e.primitives c)
  remotes : ∀ r i w w', r.remotes[i]? = some w → w.Used (· ∈ e.partitions.partitions) w' → P r →
    P { r with remotes := r.remotes.set i w' }
  inventory : ∀ r inventory, r.devices.Later (inventory.getD default) → P r → P { r with inventory }

/-- A device that is put out of order, or back in, keeps what is on it. -/
theorem Resources.later_switch (r : Resources) (i : Nat) (faulted : Bool) :
    r.devices.Later (r.switch i faulted).devices := by
  unfold devices switch
  cases r.inventory with
  | none => exact .of_devices rfl
  | some v => exact .setDevice ⟨rfl, rfl, le_rfl, fun _ _ _ found => found, id⟩

section Sections

variable {e : Environment} {p : Plan} {P : Resources → Prop} {r : Resources}

theorem Environment.Sustains.toHost (s : e.Sustains P) (b : Buffer) (now : P r) :
    P (r.toHost b).2 := by
  have later := r.later_toHost b
  unfold Resources.toHost at later ⊢
  split
  · exact now
  · exact now
  · next v none_ there =>
    simp only [none_, there] at later
    exact s.inventory r _ later now

theorem Environment.Sustains.drop (s : e.Sustains P) (bs : List Buffer) (now : P r) :
    P (r.drop bs) :=
  s.inventory r _ (r.later_drop bs) now

theorem Environment.Sustains.allows (s : e.Sustains P) : e.Allows fun r r' => P r → P r' where
  refl _ := id
  fetchKeys := s.fetchKeys
  remotes := s.remotes
  toHost b _ := s.toHost b
  inventory := s.inventory

/-! ## jobs -/

/-- What is left of a job keeps something of the resources. -/
def Job.Sustains {α : Type} (P : Resources → Prop) (j : Job Run α) : Prop :=
  j.Ensures (fun r => P r.resources) (fun _ r' => P r'.resources) fun _ => True

theorem Job.sustains_change {f : Run → Run} (h : ∀ r : Run, P r.resources → P (f r).resources) :
    (Job.change f).Sustains P :=
  .change h trivial

/-- Whatever a node comes to, it keeps what the sections of the call keep. -/
theorem sustains_nodeJob (s : e.Sustains P) (i : Nat) : (nodeJob e p i).Sustains P := by
  have performs : (perform e p i).Sustains P :=
    (confined_perform s.allows i).weaken (fun _ _ => trivial) (fun _ _ now both => both.2 now)
      fun _ _ => trivial
  have releases : (releaseAll (p.graph.inputsOf i)).Sustains P := by
    generalize p.graph.inputsOf i = slots
    induction slots with
    | nil => exact .pure trivial
    | cons slot rest ih =>
        exact .bind (Job.sustains_change fun r now => s.drop _ now) fun _ _ => ih
  refine .bind performs fun ended _ => .bind releases fun _ _ =>
    Job.sustains_change fun r now => ?_
  unfold Run.complete
  split
  · exact now
  · split
    · exact s.drop _ now
    · exact s.drop _ now

theorem Environment.Sustains.announceAll (s : e.Sustains P) (calls : List PrimitiveCall) {r : Run}
    (now : P r.resources) : P (r.announce e calls).resources :=
  List.foldlRecOn calls _ now fun r now c _ => s.announce c r now

/-- A worker that asks for a node leaves the resources alone. -/
theorem Run.resources_next (r : Run) : (r.next e p).2.resources = r.resources := by
  unfold Run.next
  split
  dsimp only
  split <;> rfl

/-! ## workers -/

/-- What is left of the job of a worker keeps something of the resources. -/
def Thread.Sustains (P : Resources → Prop) : Thread → Prop
  | .busy _ job => job.Sustains P
  | _ => True

/-- One section of a worker keeps it. -/
theorem Thread.Sustains.move (s : e.Sustains P) {t : Thread} (h : t.Sustains P) {r : Run}
    (now : P r.resources) : P (t.move e p r).1.resources ∧ (t.move e p r).2.Sustains P := by
  match t, h with
  | .gone, _ => exact ⟨now, trivial⟩
  | .idle, _ =>
      have same := r.resources_next (e := e) (p := p)
      simp only [Thread.move]
      generalize r.next e p = next at same ⊢
      obtain ⟨turn, r'⟩ := next
      cases turn with
      | start i => exact ⟨same.symm ▸ now, sustains_nodeJob s i⟩
      | wait => exact ⟨same.symm ▸ now, trivial⟩
      | stop => exact ⟨same.symm ▸ now, trivial⟩
  | .busy _ (.done ()), _ => exact ⟨now, trivial⟩
  | .busy i (.step act next), h => exact h r now
  | .busy i (.await ready next), h =>
      refine ⟨now, ?_⟩
      simp only [Thread.move]
      split
      · exact h
      · exact h
  | .busy i (.announce calls next), h => exact ⟨s.announceAll calls now, h⟩

/-- Something holds of the resources of a call, and what its workers are about to do keeps it. -/
structure Crew.Sustained (P : Resources → Prop) (c : Crew) : Prop where
  now : P c.run.resources
  threads : ∀ t ∈ c.threads, t.Sustains P

/-- What an occurrence cancels. -/
def Occurrence.cancels : Occurrence → Cancellation → Cancellation
  | .move (.raise t), s => s.raise t
  | .move .cancelInFlight, s => s.advance
  | _, s => s

namespace Crew.Sustained

variable {c : Crew}

theorem initial {run : Run} (now : P run.resources) (workers : Nat) :
    (Crew.initial run workers).Sustained P where
  now := now
  threads t mem := by
    obtain ⟨-, rfl⟩ := List.mem_replicate.mp mem
    trivial

theorem worker (s : e.Sustains P) (h : c.Sustained P) (k : Nat) :
    (c.move e p (.worker k)).Sustained P := by
  simp only [Crew.move]
  cases found : c.threads[k]? with
  | none => exact h
  | some t =>
      obtain ⟨now, goes⟩ := (h.threads t (List.mem_of_getElem? found)).move (p := p) s h.now
      rw [Option.elim_some, Crew.advance_eq e p found]
      refine ⟨now, fun t' mem => ?_⟩
      rcases List.mem_or_eq_of_mem_set mem with old | rfl
      · exact h.threads t' old
      · exact goes

/-- What happens from outside is a cancellation, or concerns the devices. -/
theorem occur (s : e.Sustains P) (h : c.Sustained P) (o : Occurrence)
    (outside : ∀ r, P r → P (r.withCancellation o.cancels)) : (c.occur e p o).Sustained P := by
  cases o with
  | move m =>
      cases m with
      | worker k => exact h.worker s k
      | raise t => exact ⟨outside _ h.now, h.threads⟩
      | cancelInFlight => exact ⟨outside _ h.now, h.threads⟩
  | switch i faulted =>
      exact ⟨s.inventory _ _ (c.run.resources.later_switch i faulted) h.now, h.threads⟩

theorem occurs (s : e.Sustains P) (h : c.Sustained P) {os : List Occurrence}
    (outside : ∀ o ∈ os, ∀ r, P r → P (r.withCancellation o.cancels)) :
    (c.occurs e p os).Sustained P := by
  induction os generalizing c with
  | nil => exact h
  | cons o rest ih =>
      obtain ⟨first, others⟩ := List.forall_mem_cons.mp outside
      exact ih (h.occur s o first) others

/-- While only workers move, nothing happens from outside. -/
theorem workers (s : e.Sustains P) (h : c.Sustained P) (ks : List Nat) :
    (c.moves e p (ks.map .worker)).Sustained P := by
  rw [← occurs_moves, List.map_map]
  refine h.occurs s fun o mem r now => ?_
  obtain ⟨k, -, rfl⟩ := List.mem_map.mp mem
  exact now

end Crew.Sustained

/-! ## the end of a call -/

theorem Run.sustains_collect (s : e.Sustains P) (requested : List (ValueId × Nat)) {r : Run}
    (now : P r.resources) : P (Run.collect requested r).2.resources := by
  induction requested generalizing r with
  | nil => exact now
  | cons q rest ih =>
      unfold Run.collect
      split
      · exact now
      · next b arena _ =>
          have dropped : P ((r.resources.toHost b).2.drop [b]) := s.drop _ (s.toHost b now)
          dsimp only
          split
          · exact dropped
          · exact ih (r := { r with arena, resources := (r.resources.toHost b).2.drop [b] }) dropped

theorem Run.sustains_finish (s : e.Sustains P) (bound : Except RunError Unit) {r : Run}
    (now : P r.resources) : P (r.finish p bound).2.2 := by
  unfold Run.finish
  dsimp only
  split
  · exact s.drop _ now
  · exact s.drop _ now
  · exact s.drop _ (Run.sustains_collect s p.requested now)

variable {supplied : List (ValueId × Value)} {resources : Resources} {workers : Nat} {answer : Answer}
  {may : Occurrence → Prop}

/-- What all sections of a call keep holds when it has ended, if what happens from outside keeps it. -/
theorem Plan.MayEnd.sustains (s : e.Sustains P)
    (outside : ∀ o, may o → ∀ r, P r → P (r.withCancellation o.cancels)) (now : P resources)
    (h : p.MayEnd may e workers supplied resources answer) : P answer.2.2 := by
  cases h with
  | refused bound => exact (Run.resources_refused bound).symm ▸ now
  | @finished run os allowed bound gone =>
      have same := Run.resources_bind (e := e) (p := p) supplied p.graph.arguments.toList
        (Run.initial p resources)
      rw [bound] at same
      have begun : (Plan.crew run workers).Sustained P := .initial (same.symm ▸ now) _
      exact Run.sustains_finish s _ (begun.occurs s fun o mem => outside o (allowed o mem)).now

/-! ## calls that nobody cancels -/

/-- Primitives that send no signals cancel nothing. -/
theorem Environment.sustains_cancellation (silent : ∀ op, e.primitives.signals op = [])
    (s : Cancellation) : e.Sustains fun r => r.cancellation = s where
  fetchKeys _ _ _ now := now
  announce c r now := by
    simpa [Resources.announce, Resources.signal, silent, Resources.withCancellation] using now
  remotes _ _ _ _ _ _ now := now
  inventory _ _ _ now := now

/-- A call whose workers alone move does not tell of a cancellation. -/
theorem Plan.uncancelled_workers (sound : p.Sound) (silent : ∀ op, e.primitives.signals op = [])
    (now : resources.cancellation.isCancelled e.token = false) {run : Run}
    (bound : Run.bind e p supplied p.graph.arguments.toList (Run.initial p resources) =
      (.ok (), run)) (workers : Nat) (ks : List Nat) {cause : RunError} {skipped : Nat} :
    (((Plan.crew run workers).moves e p (ks.map .worker)).run.finish p (.ok ())).1 ≠
      .error (.graphCancelled cause none skipped) := by
  intro told
  obtain ⟨before, early, cancelled⟩ := Plan.cancelled_of_finish sound bound told
  obtain ⟨ks', rfl⟩ : ∃ ks' : List Nat, before = ks'.map .worker :=
    ⟨ks.take before.length, by rw [List.map_take, ← List.prefix_iff_eq_take.mp early]⟩
  have same := Run.resources_bind (e := e) (p := p) supplied p.graph.arguments.toList
    (Run.initial p resources)
  rw [bound] at same
  have begun : (Plan.crew run workers).Sustained fun r => r.cancellation = resources.cancellation :=
    .initial (congrArg Resources.cancellation same) _
  rw [(begun.workers (e.sustains_cancellation silent _) ks').now, now] at cancelled
  contradiction

/-- A call by the clock whose token is not cancelled when it begins does not tell of a cancellation. -/
theorem Plan.uncancelled_execute (sound : p.Sound) (silent : ∀ op, e.primitives.signals op = [])
    (now : resources.cancellation.isCancelled e.token = false) {cause : RunError} {skipped : Nat} :
    (p.execute e workers supplied resources).1 ≠ .error (.graphCancelled cause none skipped) := by
  generalize begun : Run.bind e p supplied p.graph.arguments.toList (Run.initial p resources) = r
  obtain ⟨bound, run⟩ := r
  cases bound with
  | error err =>
      rw [Plan.execute_refused begun]
      exact fun told => Run.plain_bind (congrArg Prod.fst begun) cause none skipped
        (Except.error.inj told)
  | ok u =>
      obtain ⟨ks, -, answer⟩ := Plan.execute_eq e p workers supplied resources begun
      rw [answer]
      exact Plan.uncancelled_workers sound silent now begun workers ks

end Sections

end HomCircuit
