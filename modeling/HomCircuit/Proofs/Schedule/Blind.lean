import HomCircuit.Proofs.Schedule.Upkeep

/-!
# HomCircuit.Proofs.Schedule.Blind

What a worker does with a node does not depend on cancellations.

```
section (r under s)   =   (section r) under s
```

Only a worker that asks for a node looks at them, and only signals of primitives change them. A node
that runs when its call is cancelled runs to its end.

* `Job.Blind` — all sections of a job commute with a change of the state;
* `Run.under` — a call under other cancellations;
* `blind_nodeJob` — the job of a node is blind to them;
* `startsNone_nodeJob` — it starts no other node.
-/

namespace HomCircuit

/-! ## jobs -/

namespace Job

variable {σ α β : Type}

/-- All sections of a job commute with a change of the state, which none of them notices. -/
def Blind (f : σ → σ) : Job σ α → Prop
  | .done _ => True
  | .step act next => (∀ s, act (f s) = ((act s).1, f (act s).2)) ∧ ∀ b, (next b).Blind f
  | .await ready next => (∀ s, ready (f s) = ready s) ∧ next.Blind f
  | .announce _ next => next.Blind f

variable {f : σ → σ}

theorem Blind.pure {a : α} : (Pure.pure a : Job σ α).Blind f := trivial

theorem Blind.bind {j : Job σ α} {k : α → Job σ β} (h : j.Blind f) (hk : ∀ a, (k a).Blind f) :
    (j >>= k).Blind f := by
  induction j with
  | done a => exact hk a
  | step act next ih => exact ⟨h.1, fun b => ih b (h.2 b)⟩
  | await ready next ih => exact ⟨h.1, ih h.2⟩
  | announce calls next ih => exact ih h

theorem Blind.atomic {act : σ → α × σ} (h : ∀ s, act (f s) = ((act s).1, f (act s).2)) :
    (Job.atomic act).Blind f := ⟨h, fun _ => trivial⟩

theorem Blind.look {g : σ → α} (h : ∀ s, g (f s) = g s) : (Job.look g).Blind f :=
  .atomic fun s => by rw [h]

theorem Blind.change {g : σ → σ} (h : ∀ s, g (f s) = f (g s)) : (Job.change g).Blind f :=
  .atomic fun s => by rw [h]

theorem Blind.wait {ready : σ → Bool} (h : ∀ s, ready (f s) = ready s) : (Job.wait ready).Blind f :=
  ⟨h, trivial⟩

/-- A job on a part of a larger state notices nothing that happens elsewhere. -/
theorem Blind.within {τ : Type} {get : τ → σ} {set : σ → τ → τ} {g : τ → τ}
    (same : ∀ t, get (g t) = get t) (apart : ∀ s t, set s (g t) = g (set s t)) (j : Job σ α) :
    (j.within get set).Blind g := by
  induction j with
  | done a => exact trivial
  | step act next ih => exact ⟨fun t => by simp only [same, apart], fun b => ih b⟩
  | await ready next ih => exact ⟨fun t => by simp only [same], ih⟩
  | announce calls next ih => exact ih

end Job

namespace NodeJob

variable {α β : Type} {f : Run → Run}

/-- The same of a job that may fail. -/
def Blind (f : Run → Run) (j : NodeJob α) : Prop := Job.Blind f j.run

theorem Blind.pure {a : α} : (Pure.pure a : NodeJob α).Blind f := trivial

theorem Blind.bind {j : NodeJob α} {k : α → NodeJob β} (h : j.Blind f) (hk : ∀ a, (k a).Blind f) :
    (j >>= k).Blind f := by
  refine Job.Blind.bind (j := j.run) h fun r => ?_
  cases r with
  | ok a => exact hk a
  | error err => exact trivial

theorem Blind.lift {j : Job Run α} (h : j.Blind f) : NodeJob.Blind f (ExceptT.lift j) :=
  Job.Blind.bind h fun _ => .pure

theorem Blind.ofExcept (r : Except RunError α) : (NodeJob.ofExcept r).Blind f := trivial

theorem Blind.ofOutcome (n : Node) (o : Outcome RunError α) : (NodeJob.ofOutcome n o).Blind f := by
  cases o <;> exact trivial

theorem Blind.tell (calls : List PrimitiveCall) : (NodeJob.tell calls).Blind f := trivial

end NodeJob

/-! ## resources under other cancellations -/

namespace Resources

/-- The same resources under other cancellations. -/
def under (s : Cancellation) (r : Resources) : Resources := { r with cancellation := s }

variable (s : Cancellation) (r : Resources)

@[simp] theorem inventory_under : (r.under s).inventory = r.inventory := rfl

@[simp] theorem remotes_under : (r.under s).remotes = r.remotes := rfl

theorem toHost_under (b : Buffer) :
    (r.under s).toHost b = ((r.toHost b).1, (r.toHost b).2.under s) := by
  unfold toHost
  rw [inventory_under]
  cases b.hostValue? with
  | some value => rfl
  | none => cases r.inventory <;> rfl

theorem queueUp_under (worker : Nat) :
    (r.under s).queueUp worker = ((r.queueUp worker).1, (r.queueUp worker).2.under s) := by
  unfold queueUp
  rw [remotes_under]
  cases r.remotes[worker]? <;> rfl

theorem runRemote_under (worker : Nat) (n : Node) (p : Partition) (source : Option Partition)
    (seed : KeySeed) (inputs : List Ciphertext) (nonce : UInt64) :
    (r.under s).runRemote worker n p source seed inputs nonce =
      ((r.runRemote worker n p source seed inputs nonce).1,
        (r.runRemote worker n p source seed inputs nonce).2.under s) := by
  unfold runRemote
  rw [remotes_under]
  cases r.remotes[worker]? <;> rfl

end Resources

/-- The same call under other cancellations. -/
def Run.under (s : Cancellation) (r : Run) : Run := { r with resources := r.resources.under s }

namespace NodeJob

variable {α : Type} {s : Cancellation}

theorem Blind.onResources {act : Resources → α × Resources}
    (h : ∀ r : Resources, act (r.under s) = ((act r).1, (act r).2.under s)) :
    (NodeJob.onResources act).Blind (Run.under s) := by
  refine .lift (.atomic fun r => ?_)
  have seen := h r.resources
  unfold Run.under
  dsimp only
  rw [seen]

theorem Blind.tryResources {act : Resources → Except RunError α × Resources}
    (h : ∀ r : Resources, act (r.under s) = ((act r).1, (act r).2.under s)) :
    (NodeJob.tryResources act).Blind (Run.under s) :=
  .bind (.onResources h) fun r => .ofExcept r

theorem Blind.wait {ready : Resources → Bool} (h : ∀ r : Resources, ready (r.under s) = ready r) :
    (NodeJob.wait ready).Blind (Run.under s) :=
  .lift (.wait fun r => h r.resources)

end NodeJob

/-! ## nodes -/

section Node

variable {e : Environment} {p : Plan} {n : Node} {q : Partition} {s : Cancellation}

theorem blind_readInputs (slots : List Nat) : (readInputs p n slots).Blind (Run.under s) := by
  induction slots with
  | nil => exact .pure
  | cons slot rest ih =>
      refine .bind (.lift (.look fun _ => rfl)) fun b => ?_
      cases b with
      | none => exact .ofExcept _
      | some b => exact .bind ih fun _ => .pure

theorem blind_hostCiphertexts (bs : List Buffer) : (hostCiphertexts bs).Blind (Run.under s) := by
  induction bs with
  | nil => exact .pure
  | cons b rest ih =>
      refine .bind (.tryResources fun r => r.toHost_under s b) fun v => ?_
      cases v with
      | ciphertext words => exact .bind ih fun _ => .pure
      | cleartext number => exact .ofExcept _
      | simulated x => exact .ofExcept _

theorem blind_keysFor : (keysFor e n q).Blind (Run.under s) := by
  refine .bind (.tryResources fun r => rfl) fun output => .bind (.ofExcept _) fun source => ?_
  cases source with
  | none => exact .pure
  | some source => exact .bind (.tryResources fun r => rfl) fun _ => .pure

theorem blind_runOnProcessor (bs : List Buffer) :
    (runOnProcessor e n q bs).Blind (Run.under s) :=
  .bind (blind_hostCiphertexts bs) fun _ => .bind blind_keysFor fun _ => .bind (.tell _) fun _ =>
    .bind (.ofOutcome n _) fun _ => .pure

theorem blind_runSimulated (bs : List Buffer) : (runSimulated e n q bs).Blind (Run.under s) := by
  refine .bind ?_ fun _ => .bind (.ofExcept _) fun _ => .bind (.ofOutcome n _) fun _ => .pure
  induction bs with
  | nil => exact .pure
  | cons b rest ih =>
      rw [List.mapM_cons]
      refine .bind ?_ fun _ => .bind ih fun _ => .pure
      split
      · exact .pure
      · exact .ofExcept _

theorem blind_runOnDevice (i : Nat) (bs : List Buffer) :
    (runOnDevice e p i n q bs).Blind (Run.under s) := by
  refine .bind blind_keysFor fun keys => .bind (.lift ?_) fun out => .ofOutcome n _
  apply Job.Blind.within
  · exact fun _ => rfl
  · exact fun _ _ => rfl

theorem blind_runOnRemote (worker : Nat) (bs : List Buffer) :
    (runOnRemote e worker n q bs).Blind (Run.under s) := by
  refine .bind (.onResources fun r => rfl) fun there => ?_
  have sent : (do
      let words ← hostCiphertexts bs
      let nonce := nodeNonce n.id words
      let source ← .ofExcept (sourcePartition e n)
      let ticket ← NodeJob.onResources (Resources.queueUp worker)
      NodeJob.wait (Resources.mayUse worker ticket)
      let answer ← NodeJob.onResources
        (Resources.runRemote worker n q source e.seed words nonce)
      NodeJob.tell answer.2
      NodeJob.onResources fun r => ((), r.leaveLink worker)
      return .host (.ciphertext (← .ofExcept answer.1)) : NodeJob Payload).Blind (Run.under s) :=
    .bind (blind_hostCiphertexts bs) fun words => .bind (.ofExcept _) fun source =>
      .bind (.onResources fun r => r.queueUp_under s worker) fun _ => .bind (.wait fun r => rfl) fun _ =>
      .bind (.onResources fun r => r.runRemote_under s worker n q source e.seed words _) fun _ =>
      .bind (.tell _) fun _ => .bind (.onResources fun r => rfl) fun _ => .bind (.ofExcept _) fun _ =>
      .pure
  cases there
  · exact .bind (.ofExcept _) fun _ => sent
  · exact sent

theorem blind_runOn (target : Target) (i : Nat) (bs : List Buffer) :
    (runOn e p target i n q bs).Blind (Run.under s) := by
  cases target with
  | simulation => exact Job.Blind.bind (blind_runSimulated bs) fun _ => .pure
  | cpu => exact Job.Blind.bind (blind_runOnProcessor bs) fun _ => .pure
  | remote w => exact Job.Blind.bind (blind_runOnRemote w bs) fun _ => .pure
  | accelerator =>
      refine Job.Blind.bind (blind_runOnDevice i bs) fun r => ?_
      cases r with
      | ok made => exact .pure
      | error err =>
          dsimp only
          split
          · exact Job.Blind.bind (.change fun r => rfl) fun _ =>
              Job.Blind.bind (blind_runOnProcessor bs) fun _ => .pure
          · exact .pure

theorem blind_perform (i : Nat) : (perform e p i).Blind (Run.under s) := by
  dsimp only [perform]
  cases e.partition (p.graph.node i).partition with
  | error err => exact .pure
  | ok q =>
      refine Job.Blind.bind (blind_readInputs _) fun inputs => ?_
      cases inputs with
      | error err => exact .pure
      | ok bs => exact Job.Blind.bind (blind_runOn _ i bs) fun _ => .pure

/-- A node that is settled does not look at cancellations. -/
theorem Run.complete_under (i : Nat) (done : Performed) (r : Run) :
    (r.under s).complete p i done = (r.complete p i done).under s := by
  unfold Run.complete
  cases done.result with
  | error err => rfl
  | ok b =>
      change (if r.dispatch.failure.isSome then _ else _) = _
      dsimp only
      split <;> rfl

/-- The job of a node does not look at cancellations. -/
theorem blind_nodeJob (i : Nat) : (nodeJob e p i).Blind (Run.under s) := by
  have releases : (releaseAll (p.graph.inputsOf i)).Blind (Run.under s) := by
    induction p.graph.inputsOf i with
    | nil => exact .pure
    | cons slot rest ih => exact .bind (.change fun r => rfl) fun _ => ih
  exact .bind (blind_perform i) fun done => .bind releases fun _ =>
    .change fun r => r.complete_under i done

/-- No section of a job starts a node. -/
def Job.StartsNone {α : Type} (j : Job Run α) : Prop :=
  j.Ensures (fun _ => True) (fun r r' => r'.dispatch.started = r.dispatch.started) fun _ => True

theorem Job.startsNone_change {f : Run → Run}
    (h : ∀ r : Run, (f r).dispatch.started = r.dispatch.started) : (Job.change f).StartsNone :=
  .change (fun r _ => h r) trivial

/-- The job of a node starts no other node. -/
theorem startsNone_nodeJob (i : Nat) : (nodeJob e p i).StartsNone := by
  have performs : (perform e p i).StartsNone :=
    (confined_perform e.allows_true i).weaken (fun _ _ => trivial)
      (fun r r' _ both => by rw [both.1]) fun _ _ => trivial
  have releases : (releaseAll (p.graph.inputsOf i)).StartsNone := by
    induction p.graph.inputsOf i with
    | nil => exact .pure trivial
    | cons slot rest ih => exact .bind (Job.startsNone_change fun _ => rfl) fun _ _ => ih
  refine .bind performs fun done _ => .bind releases fun _ _ => Job.startsNone_change fun r => ?_
  unfold Run.complete
  split
  · rfl
  · split
    · rfl
    · simp only [Dispatch.succeed, Dispatch.foldl_resolve]

end Node

end HomCircuit
