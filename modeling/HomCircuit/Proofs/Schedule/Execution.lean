import HomCircuit.Proofs.Schedule.Confined

/-!
# HomCircuit.Proofs.Schedule.Execution

What running a node comes to on every backend, whatever the other workers do between its sections, as
long as its inputs stay in their slots.

```
fallbacks counted while a node runs  =  1 if its record tells of one, 0 otherwise
```

* `RunError.SparesGraph` — the errors that blame anything but the graph;
* `Run.Accrues` — a section works on the resources alone, and counts fallbacks as told;
* `tracks_perform` — a node finds its inputs, never blames the graph, and counts its own fallback.
-/

namespace HomCircuit

/-- An error is not about the graph: no value was missing where it should have been. -/
def RunError.SparesGraph (err : RunError) : Prop := ∀ reason, err.rootCause ≠ .invalidGraph reason

/-! ## fallbacks of an inventory -/

namespace Inventory

section Sections

variable (v : Inventory) (i : Nat)

theorem fallbacks_select : v.select.2.counters.fallbacks = v.counters.fallbacks := by
  unfold select
  split
  · rfl
  · cases v.policy with
    | roundRobin => rfl
    | leastLoaded => cases v.lightest? <;> rfl

theorem fallbacks_upload (words : Ciphertext) :
    (v.upload i words).2.counters.fallbacks = v.counters.fallbacks := by
  unfold upload
  split <;> rfl

theorem fallbacks_download (r : Resident) :
    (v.download r).2.counters.fallbacks = v.counters.fallbacks := by
  unfold download
  split <;> rfl

theorem fallbacks_keepOutput (words : Ciphertext) :
    (v.keepOutput i words).2.counters.fallbacks = v.counters.fallbacks := by
  unfold keepOutput
  split <;> rfl

theorem fallbacks_dropBuffers (bs : List Buffer) :
    (v.dropBuffers bs).counters.fallbacks = v.counters.fallbacks := by
  induction bs generalizing v with
  | nil => rfl
  | cons b rest ih =>
      refine (ih (v.dropBuffer b)).trans ?_
      unfold dropBuffer
      cases b.resident? <;> rfl

theorem fallbacks_toHost (b : Buffer) :
    (v.toHost b).2.counters.fallbacks = v.counters.fallbacks := by
  unfold toHost
  cases b.payload with
  | host value => rfl
  | device r => exact fallbacks_download v r

end Sections

/-- A job on the devices counts no fallback. -/
def Uncounted {α : Type} (j : Job Inventory α) : Prop :=
  j.Ensures (fun _ => True) (fun v v' => v'.counters.fallbacks = v.counters.fallbacks) fun _ => True

theorem Uncounted.bind {α β : Type} {j : Job Inventory α} {k : α → Job Inventory β}
    (h : Uncounted j) (hk : ∀ a, Uncounted (k a)) : Uncounted (j >>= k) :=
  Job.Ensures.bind h fun a _ => hk a

theorem Uncounted.atomic {α : Type} {act : Inventory → α × Inventory}
    (h : ∀ v, (act v).2.counters.fallbacks = v.counters.fallbacks) : Uncounted (Job.atomic act) :=
  Job.Ensures.atomic fun v _ => ⟨h v, trivial⟩

theorem Uncounted.look {α : Type} {f : Inventory → α} : Uncounted (Job.look f) := .atomic fun _ => rfl

theorem Uncounted.free (r : Resident) : Uncounted (Job.change (·.free r)) := .atomic fun _ => rfl

theorem Uncounted.download (r : Resident) : Uncounted (Job.atomic (·.download r)) :=
  .atomic fun v => v.fallbacks_download r

theorem uncounted_stage (i : Nat) (b : Buffer) : Uncounted (stage i b) := by
  have moveIn (words : Ciphertext) : Uncounted (do
      let h ← Job.atomic (·.upload i words)
      return h.map (·, true) : Job Inventory (Except DeviceError (DeviceHandle × Bool))) :=
    .bind (.atomic fun v => v.fallbacks_upload i words) fun _ => trivial
  unfold stage
  cases b.payload with
  | host value =>
      cases value with
      | ciphertext words => exact moveIn words
      | cleartext number => exact .look
      | simulated s => exact .look
  | device r =>
      refine .bind .look fun here => ?_
      cases here with
      | true => exact trivial
      | false =>
          refine .bind (.download r) fun words => ?_
          cases words with
          | error err => exact trivial
          | ok words => exact moveIn words

theorem uncounted_stageAll (i : Nat) (bs : List Buffer) :
    ∀ handles moved, Uncounted (stageAll i handles moved bs) := by
  induction bs with
  | nil => exact fun _ _ => trivial
  | cons b rest ih =>
      intro handles moved
      refine .bind (uncounted_stage i b) fun staged => ?_
      cases staged with
      | error err => exact trivial
      | ok h => exact ih _ _

theorem uncounted_unstage (i : Nat) (moved : List DeviceHandle) : Uncounted (unstage i moved) := by
  induction moved with
  | nil => exact trivial
  | cons h rest ih => exact .bind (.free _) fun _ => ih

theorem uncounted_compute (i : Nat) (op : Operation) (handles : List DeviceHandle)
    (keys : OperationKeys) (nonce : UInt64) : Uncounted (compute i op handles keys nonce) := by
  refine .bind .look fun ⟨inputs, d⟩ => ?_
  cases inputs with
  | error err => exact trivial
  | ok words =>
      dsimp only
      split
      all_goals
        try refine .bind (j := Job.tell _) trivial fun _ => ?_
        cases d.primitives.run op words keys nonce with
        | crashed text => exact trivial
        | failed err => exact trivial
        | done words => exact .bind (.atomic fun v => v.fallbacks_keepOutput i words) fun _ => trivial

theorem uncounted_settle (i : Nat) (h : DeviceHandle) (keep : Bool) : Uncounted (settle i h keep) := by
  refine .bind .look fun id => ?_
  cases keep with
  | true => exact trivial
  | false => exact .bind (.download _) fun _ => .bind (.free _) fun _ => trivial

theorem uncounted_operate (op : Operation) (inputs : List Buffer) (keys : OperationKeys)
    (nonce : UInt64) (keep : Bool) : Uncounted (operate op inputs keys nonce keep) := by
  refine .bind (.atomic fallbacks_select) fun selected => ?_
  cases selected with
  | error err => exact trivial
  | ok i =>
      refine .bind (uncounted_stageAll i inputs [] []) fun ⟨staged, moved⟩ => ?_
      cases staged with
      | error err => exact .bind (uncounted_unstage i moved) fun _ => trivial
      | ok handles =>
          refine .bind (uncounted_compute i op handles keys nonce) fun computed => ?_
          cases computed with
          | failed err => exact .bind (uncounted_unstage i moved) fun _ => trivial
          | crashed text => exact .bind (uncounted_unstage i moved) fun _ => trivial
          | done h => exact .bind (uncounted_unstage i moved) fun _ => uncounted_settle i h keep

end Inventory

/-! ## fallbacks of a context -/

namespace Resources

/-- How often the processor has taken over, in a context that has devices. -/
def fallbacks? (r : Resources) : Option Nat := r.inventory.map (·.counters.fallbacks)

variable (r : Resources)

theorem fallbacks?_drop (bs : List Buffer) : (r.drop bs).fallbacks? = r.fallbacks? := by
  unfold fallbacks? drop
  rw [Option.map_map]
  exact congrArg r.inventory.map (funext fun v => v.fallbacks_dropBuffers bs)

theorem fallbacks?_toHost (b : Buffer) : (r.toHost b).2.fallbacks? = r.fallbacks? := by
  unfold toHost
  split
  · rfl
  · rfl
  · next v _ there => simp [fallbacks?, there, v.fallbacks_toHost b]

theorem fallbacks?_queueUp (worker : Nat) : (r.queueUp worker).2.fallbacks? = r.fallbacks? := by
  unfold queueUp
  split <;> rfl

theorem fallbacks?_runRemote (worker : Nat) (n : Node) (q : Partition) (source : Option Partition)
    (seed : KeySeed) (inputs : List Ciphertext) (nonce : UInt64) :
    (r.runRemote worker n q source seed inputs nonce).2.fallbacks? = r.fallbacks? := by
  unfold runRemote
  split <;> rfl

theorem fallbacks?_recordFallback : r.recordFallback.fallbacks? = r.fallbacks?.map (· + 1) := by
  unfold fallbacks? recordFallback
  rw [Option.map_map, Option.map_map]
  rfl

theorem fallbacks?_announce (ps : Primitives) (calls : List PrimitiveCall) :
    (calls.foldl (Resources.announce ps) r).fallbacks? = r.fallbacks? := by
  induction calls generalizing r with
  | nil => rfl
  | cons c rest ih => exact ih _

end Resources

/-! ## sections of a node -/

/-- A section works on the resources alone, and counts the fallbacks that its worker has counted more
after it than before. -/
def Run.Accrues (own own' : Nat) (r r' : Run) : Prop :=
  r.Confines r' ∧
    ∀ n, r.resources.fallbacks? = some (n + own) → r'.resources.fallbacks? = some (n + own')

theorem Run.Accrues.add {own own' : Nat} {r r' : Run} (h : Run.Accrues own own' r r') (k : Nat) :
    Run.Accrues (k + own) (k + own') r r' :=
  ⟨h.1, fun n before => by
    rw [← Nat.add_assoc] at before ⊢
    exact h.2 (n + k) before⟩

/-- All inputs of a node are in their slots. -/
def Run.Furnished (g : Graph) (i : Nat) (r : Run) : Prop :=
  ∀ slot ∈ g.inputsOf i, (r.arena.get? slot).isSome = true

namespace NodeJob

variable {α β : Type}

/-- A job of a node counts no fallback, and fails for other reasons than the graph. -/
def Decent (j : NodeJob α) : Prop :=
  j.Ensures (fun _ => True) (Run.Accrues 0 0) (fun _ => True) RunError.SparesGraph

theorem Decent.pure {a : α} : (Pure.pure a : NodeJob α).Decent := trivial

theorem Decent.bind {j : NodeJob α} {k : α → NodeJob β} (h : j.Decent) (hk : ∀ a, (k a).Decent) :
    (j >>= k).Decent :=
  Ensures.bind h fun a _ => hk a

theorem Decent.ofExcept {r : Except RunError α} (h : ∀ err, r = .error err → err.SparesGraph) :
    (NodeJob.ofExcept r).Decent := by
  cases r with
  | ok a => trivial
  | error err => exact h err rfl

theorem Decent.error {err : RunError} (h : err.SparesGraph) :
    (NodeJob.ofExcept (.error err) : NodeJob α).Decent := h

theorem Decent.onResources {act : Resources → α × Resources}
    (h : ∀ r, (act r).2.fallbacks? = r.fallbacks?) : (NodeJob.onResources act).Decent :=
  Ensures.lift (Job.Ensures.atomic fun r _ =>
    ⟨⟨rfl, fun _ before => (h r.resources).trans before⟩, trivial⟩)

theorem Decent.tryResources {act : Resources → Except RunError α × Resources}
    (h : ∀ r, (act r).2.fallbacks? = r.fallbacks?)
    (errors : ∀ r err, (act r).1 = .error err → err.SparesGraph) :
    (NodeJob.tryResources act).Decent :=
  Ensures.tryResources fun r _ => by
    refine ⟨⟨rfl, fun n before => (h r.resources).trans before⟩, ?_⟩
    cases result : (act r.resources).1 with
    | ok a => trivial
    | error err => exact errors _ _ result

theorem Decent.ofOutcome {n : Node} {o : Outcome RunError α}
    (h : ∀ err, o = .failed err → err.SparesGraph) : (NodeJob.ofOutcome n o).Decent := by
  cases o with
  | done a => exact trivial
  | failed err => exact h err rfl
  | crashed text => exact nofun

theorem Decent.tell {calls : List PrimitiveCall} : (NodeJob.tell calls).Decent :=
  Ensures.tell trivial

theorem Decent.wait {ready : Resources → Bool} : (NodeJob.wait ready).Decent :=
  Ensures.lift (j := Job.wait _) trivial

end NodeJob

/-! ## errors -/

section Errors

variable {e : Environment} {n : Node}

theorem RunError.sparesGraph_ofKey (err : KeyError) : (RunError.ofKey err).SparesGraph := by
  cases err <;> exact nofun

theorem Environment.sparesGraph_partition {id : PartitionId} {err : RunError}
    (h : e.partition id = .error err) : err.SparesGraph := by
  unfold Environment.partition at h
  split at h
  · contradiction
  · obtain rfl := Except.error.inj h
    exact nofun

theorem sparesGraph_sourcePartition {err : RunError} (h : sourcePartition e n = .error err) :
    err.SparesGraph := by
  unfold sourcePartition at h
  split at h
  · next source _ =>
      cases known : e.partition source with
      | ok q => simp [known, Except.map] at h
      | error err' =>
          obtain rfl : err' = err := by simpa [known, Except.map] using h
          exact Environment.sparesGraph_partition known
  · contradiction

namespace Simulation

/-- An outcome is no error: there is a result, or a crash. -/
def Sure {α : Type} (o : Outcome RunError α) : Prop := ∀ err, o ≠ .failed err

theorem Sure.bind {α β : Type} {o : Outcome RunError α} {next : α → Outcome RunError β}
    (h : Sure o) (hn : ∀ a, Sure (next a)) : Sure (o >>= next) := by
  cases o with
  | done a => exact hn a
  | failed err => exact absurd rfl (h err)
  | crashed text => exact nofun

theorem Sure.map {α β : Type} {o : Outcome RunError α} {f : α → β} (h : Sure o) : Sure (o.map f) := by
  cases o with
  | done a => exact nofun
  | failed err => exact absurd rfl (h err)
  | crashed text => exact nofun

theorem sure_reduce (a modulus : UInt64) : Sure (reduce a modulus) := by
  unfold reduce
  split <;> exact nofun

theorem sure_sum (a b : UInt64) : Sure (sum a b) := by
  unfold sum
  split <;> exact nofun

theorem sure_difference (a b modulus : UInt64) : Sure (difference a b modulus) :=
  .bind (sure_reduce _ _) fun _ => .bind (sure_sum _ _) fun _ => .bind (sure_reduce _ _) fun _ =>
    sure_reduce _ _

theorem sparesGraph_run {stand : List Simulated} {q source : Partition} {err : RunError}
    (h : run n stand q source = .failed err) : err.SparesGraph := by
  unfold run at h
  extract_lets a b m at h
  split at h
  · obtain rfl := Outcome.failed.inj h
    exact nofun
  · split at h
    case h_2 => exact absurd h ((sure_difference _ _ _).map _)
    case h_6 =>
      split at h
      · obtain rfl := Outcome.failed.inj h
        exact nofun
      · exact absurd h ((sure_reduce _ _).map _)
    case h_8 => contradiction
    all_goals exact absurd h ((sure_reduce _ _).map _)

end Simulation

namespace RemoteWorker

variable {w : RemoteWorker} {d : DispatchFrame} {err : RunError}

/-- An error about a remote worker. -/
def Told (err : RunError) : Prop := ∃ worker reason, err = .remote worker reason

theorem told_send (h : (w.send d).1 = .error err) : Told err := by
  unfold send at h
  extract_lets caughtUp ready at h
  generalize ready = w' at h
  split at h
  · exact ⟨_, _, (Except.error.inj h).symm⟩
  · contradiction

theorem told_deliver {left : Nat} (h : (deliver d left w).1 = .error err) : Told err := by
  induction left generalizing w with
  | zero =>
      unfold deliver at h
      split at h
      · next result w' _ =>
          cases result with
          | ok words => contradiction
          | error reason => exact ⟨_, _, (Except.error.inj h).symm⟩
      · exact ⟨_, _, (Except.error.inj h).symm⟩
      · exact ⟨_, _, (Except.error.inj h).symm⟩
  | succ left ih =>
      unfold deliver at h
      split at h
      · next result w' _ =>
          cases result with
          | ok words => contradiction
          | error reason => exact ⟨_, _, (Except.error.inj h).symm⟩
      · exact ⟨_, _, (Except.error.inj h).symm⟩
      · dsimp only at h
        split at h
        · next refused => exact Except.error.inj h ▸ told_send (congrArg Prod.fst refused)
        · exact ih h

theorem told_execute {n : Node} {q : Partition} {source : Option Partition} {seed : KeySeed}
    {inputs : List Ciphertext} {nonce : UInt64}
    (h : (w.execute n q source seed inputs nonce).1 = .error err) : Told err := by
  unfold execute at h
  dsimp only at h
  split at h
  · next refused => exact Except.error.inj h ▸ told_send (congrArg Prod.fst refused)
  · exact told_deliver h

end RemoteWorker

theorem Resources.sparesGraph_runRemote {worker : Nat} {q : Partition} {source : Option Partition}
    {seed : KeySeed} {inputs : List Ciphertext} {nonce : UInt64} {r : Resources} {err : RunError}
    (h : (r.runRemote worker n q source seed inputs nonce).1.1 = .error err) : err.SparesGraph := by
  unfold Resources.runRemote at h
  split at h
  · obtain rfl := Except.error.inj h
    exact nofun
  · obtain ⟨w, reason, rfl⟩ := RemoteWorker.told_execute h
    exact nofun

theorem Outcome.exists_of_mapError {ε ε' α : Type} {f : ε → ε'} {o : Outcome ε α} {err : ε'}
    (h : o.mapError f = .failed err) : ∃ cause, o = .failed cause ∧ f cause = err := by
  cases o with
  | done a => contradiction
  | failed cause => exact ⟨cause, rfl, Outcome.failed.inj h⟩
  | crashed text => contradiction

end Errors

/-! ## backends -/

section Backends

variable {e : Environment} {p : Plan} {n : Node} {q : Partition}

theorem decent_hostCiphertexts (bs : List Buffer) : (hostCiphertexts bs).Decent := by
  induction bs with
  | nil => exact .pure
  | cons b rest ih =>
      refine .bind (.tryResources (·.fallbacks?_toHost b) fun r err h => ?_) fun v => ?_
      · unfold Resources.toHost at h
        split at h
        · contradiction
        · obtain rfl := Except.error.inj h
          exact nofun
        · obtain ⟨cause, -, rfl⟩ := Except.exists_of_mapError h
          exact nofun
      · cases v with
        | ciphertext words => exact .bind ih fun _ => .pure
        | cleartext number => exact .error nofun
        | simulated s => exact .error nofun

theorem decent_fetchKeys (seed : KeySeed) :
    (NodeJob.tryResources (Resources.fetchKeys q seed)).Decent := by
  refine .tryResources (fun _ => rfl) fun r err h => ?_
  obtain ⟨cause, -, rfl⟩ := Except.exists_of_mapError h
  exact RunError.sparesGraph_ofKey cause

theorem decent_keysFor : (keysFor e n q).Decent := by
  refine .bind (decent_fetchKeys _) fun output =>
    .bind (.ofExcept fun err => sparesGraph_sourcePartition) fun source => ?_
  cases source with
  | none => exact .pure
  | some source => exact .bind (decent_fetchKeys _) fun _ => .pure

theorem decent_runOnProcessor (bs : List Buffer) : (runOnProcessor e n q bs).Decent := by
  refine .bind (decent_hostCiphertexts bs) fun words => .bind decent_keysFor fun keys =>
    .bind .tell fun _ => .bind (.ofOutcome fun err h => ?_) fun _ => .pure
  obtain ⟨cause, -, rfl⟩ := Outcome.exists_of_mapError h
  exact nofun

theorem decent_runSimulated (bs : List Buffer) : (runSimulated e n q bs).Decent := by
  refine .bind ?_ fun stand => .bind (.ofExcept fun err => Environment.sparesGraph_partition)
    fun source => .bind (.ofOutcome fun err => Simulation.sparesGraph_run) fun _ => .pure
  induction bs with
  | nil => exact .pure
  | cons b rest ih =>
      rw [List.mapM_cons]
      refine .bind ?_ fun _ => .bind ih fun _ => .pure
      split
      · exact .pure
      · exact .error nofun

theorem decent_runOnDevice (i : Nat) (bs : List Buffer) : (runOnDevice e p i n q bs).Decent := by
  refine .bind decent_keysFor fun keys => ?_
  have uncounted := Inventory.uncounted_operate n.op bs keys
    (nodeNonce n.id (bs.filterMap fun b => b.hostValue? >>= Value.ciphertext?)) (p.isResident i)
  refine .bind (.lift (uncounted.within (fun _ _ => trivial) fun r v _ same => ⟨rfl, ?_⟩)) fun out =>
    .ofOutcome fun err h => ?_
  · intro m before
    cases inventory : r.resources.inventory with
    | none => simp [Resources.fallbacks?, inventory] at before
    | some v' =>
        simp only [Resources.fallbacks?, inventory, Option.map_some, Option.getD_some] at before same ⊢
        rw [same]
        exact before
  · obtain ⟨cause, -, rfl⟩ := Outcome.exists_of_mapError h
    exact nofun

theorem decent_runOnRemote (worker : Nat) (bs : List Buffer) :
    (runOnRemote e worker n q bs).Decent := by
  refine .bind (.onResources fun _ => rfl) fun known => ?_
  have sent : (do
      let words ← hostCiphertexts bs
      let nonce := nodeNonce n.id words
      let source ← .ofExcept (sourcePartition e n)
      let ticket ← NodeJob.onResources (Resources.queueUp worker)
      NodeJob.wait (Resources.mayUse worker ticket)
      let answer ← NodeJob.onResources
        (Resources.runRemote worker n q source e.seed words nonce)
      NodeJob.tell answer.2
      NodeJob.onResources fun r => ((), r.leaveLink worker)
      return .host (.ciphertext (← .ofExcept answer.1)) : NodeJob Payload).Decent := by
    refine .bind (decent_hostCiphertexts bs) fun words =>
      .bind (.ofExcept fun err => sparesGraph_sourcePartition) fun source =>
      .bind (.onResources (·.fallbacks?_queueUp worker)) fun ticket => .bind .wait fun _ => ?_
    refine NodeJob.Ensures.bind (P := fun answer => ∀ err, answer.1 = .error err → err.SparesGraph)
      (.lift (.atomic fun r _ => ⟨⟨rfl, fun m before => ?_⟩, fun err h => ?_⟩)) fun answer spares => ?_
    · exact (r.resources.fallbacks?_runRemote worker n q source e.seed words _).trans before
    · exact Resources.sparesGraph_runRemote h
    · exact NodeJob.Decent.bind .tell fun _ => .bind (.onResources fun _ => rfl) fun _ =>
        .bind (.ofExcept spares) fun _ => .pure
  cases known
  · exact .bind (.error nofun) fun _ => sent
  · exact sent

/-! ## one node -/

/-- A worker that finds everything in place reads its inputs. -/
theorem furnished_readInputs {i : Nat} {slots : List Nat}
    (reads : ∀ slot ∈ slots, slot ∈ p.graph.inputsOf i) :
    (readInputs p n slots).Ensures (Run.Furnished p.graph i) (Run.Accrues 0 0) (fun _ => True)
      fun _ => False := by
  induction slots with
  | nil => exact .pure trivial
  | cons slot rest ih =>
      obtain ⟨read, others⟩ := List.forall_mem_cons.mp reads
      refine .bind (P := fun b => b.isSome = true)
        (.lift (.look fun r there => ⟨⟨rfl, fun _ => id⟩, there slot read⟩)) fun b found => ?_
      obtain ⟨b, rfl⟩ := Option.isSome_iff_exists.mp found
      exact .bind (ih others) fun _ _ => .pure trivial

/-- What a worker knows of a node that has run: its record tells of a fallback if one was counted, and
an error does not blame the graph. -/
def Performed.Tells (p : Plan) (i own : Nat) (done : Performed) : Prop :=
  done.record.node = (p.graph.node i).id ∧ own = (if done.record.fellBack then 1 else 0) ∧
    ∀ err, done.result = .error err → err.SparesGraph

/-- A node that keeps its inputs finds them, blames anything but the graph if it fails, and counts a
fallback exactly if its record tells of one. -/
theorem tracks_runOn (target : Target) (i : Nat) (bs : List Buffer) :
    (runOn e p target i n q bs).Tracks (fun _ => Run.Furnished p.graph i) Run.Accrues
      (fun own ran => own = (if ran.2.2 then 1 else 0) ∧
        ∀ err, ran.1 = .error err → err.SparesGraph) 0 := by
  have alone {α : Type} {own : Nat} {j : NodeJob α} (decent : j.Decent) :
      Job.Tracks (fun _ => Run.Furnished p.graph i) Run.Accrues
        (fun own' r => own' = own ∧ ∀ err, r = .error err → err.SparesGraph) own j.run :=
    decent.tracks (fun _ _ => trivial) (fun _ _ _ accrues => accrues.add own) fun r settled =>
      ⟨rfl, by rintro err rfl; exact settled⟩
  cases target with
  | simulation => exact .bind (alone (decent_runSimulated bs)) fun own r told => told
  | cpu => exact .bind (alone (decent_runOnProcessor bs)) fun own r told => told
  | remote w => exact .bind (alone (decent_runOnRemote w bs)) fun own r told => told
  | accelerator =>
      refine .bind (alone (decent_runOnDevice i bs)) ?_
      rintro own r ⟨rfl, spares⟩
      cases r with
      | ok made => exact ⟨rfl, nofun⟩
      | error err =>
          dsimp only
          split
          · have counted : (Job.change fun r : Run =>
                { r with resources := r.resources.recordFallback }).Tracks
                (fun _ => Run.Furnished p.graph i) Run.Accrues (fun own _ => own = 1) 0 :=
              .change fun r _ => ⟨1, ⟨rfl, fun m before => ?_⟩, rfl⟩
            · refine .bind counted ?_
              rintro own _ rfl
              exact .bind (alone (decent_runOnProcessor bs)) fun own r told => told
            · rw [Nat.add_zero] at before
              rw [Resources.fallbacks?_recordFallback, before]
              rfl
          · exact ⟨rfl, fun err' same => by obtain rfl := Except.error.inj same; exact spares _ rfl⟩

theorem tracks_perform (i : Nat) :
    (perform e p i).Tracks (fun _ => Run.Furnished p.graph i) Run.Accrues
      (fun own done => done.Tells p i own) 0 := by
  dsimp only [perform]
  cases known : e.partition (p.graph.node i).partition with
  | error err =>
      refine ⟨rfl, rfl, fun err' same => ?_⟩
      obtain rfl := Except.error.inj same
      exact Environment.sparesGraph_partition known
  | ok q =>
      have read : (readInputs p (p.graph.node i) (p.graph.inputsOf i)).Ensures
          (Run.Furnished p.graph i) (Run.Accrues 0 0) (fun _ => True) fun _ => False :=
        furnished_readInputs fun slot mem => mem
      refine .bind (P := fun own inputs => own = 0 ∧ inputs.isOk = true)
        (read.tracks (fun _ there => there) (fun _ _ _ accrues => accrues) fun inputs settled => ?_) ?_
      · cases inputs with
        | ok bs => exact ⟨rfl, rfl⟩
        | error err => exact settled.elim
      · rintro own inputs ⟨rfl, ok⟩
        cases inputs with
        | error err => contradiction
        | ok bs =>
            refine .bind (tracks_runOn _ i bs) ?_
            rintro own ⟨payload, placement, fellBack⟩ ⟨counted, spares⟩
            refine ⟨rfl, counted, fun err failed => ?_⟩
            cases payload with
            | ok made => contradiction
            | error err' =>
                obtain rfl := Except.error.inj failed
                exact spares _ rfl

end Backends

end HomCircuit
