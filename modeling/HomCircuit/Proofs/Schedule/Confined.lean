import HomCircuit.Proofs.Backend.Memory
import HomCircuit.Proofs.Remote.Acknowledgement
import HomCircuit.Proofs.Schedule.Perform

/-!
# HomCircuit.Proofs.Schedule.Confined

What every backend keeps, whatever its primitives, its devices and its remote workers do.

```
sections of a node   change the resources alone
output on a device   only where the plan lets it stay
```

* `Environment.Hosts`, `Environment.Allows` — what is kept by everything that happens on the host, and
  wherever nodes run;
* `Resources.devices` — the devices of a context, later than before after everything that happens there;
* `Run.Confines`, `NodeJob.Confined` — the jobs that keep to the resources, and to what is kept there;
* `confined_perform` — every node on every backend keeps to the resources;
* `Conduct.confined` — the conduct that all backends share.
-/

namespace HomCircuit

/-- A section changes the resources alone. -/
def Run.Confines (r r' : Run) : Prop := r' = { r with resources := r'.resources }

/-- What is kept of resources while keys of partitions are fetched, buffers are copied to the host and
remote workers are used. -/
structure Environment.Hosts (e : Environment) (rel : Resources → Resources → Prop) : Prop where
  refl : ∀ r, rel r r
  fetchKeys : ∀ q ∈ e.partitions.partitions, ∀ r, rel r (r.fetchKeys q e.seed).2
  remotes : ∀ r i w w', r.remotes[i]? = some w → w.Used (· ∈ e.partitions.partitions) w' →
    rel r { r with remotes := r.remotes.set i w' }
  toHost : ∀ b r, rel r (r.toHost b).2

/-- The devices of a context, if it has any. -/
def Resources.devices (r : Resources) : Inventory := r.inventory.getD default

namespace Resources

/-- Buffers that are dropped are freed. -/
theorem later_drop (r : Resources) (bs : List Buffer) : r.devices.Later (r.drop bs).devices := by
  unfold devices drop
  cases r.inventory with
  | none => exact .of_devices rfl
  | some v => exact .dropBuffers v bs

/-- To count a fallback does not touch the devices. -/
theorem later_recordFallback (r : Resources) : r.devices.Later r.recordFallback.devices := by
  refine .of_devices ?_
  unfold devices recordFallback
  cases r.inventory <;> rfl

/-- Neither does a copy to the host. -/
theorem later_toHost (r : Resources) (b : Buffer) : r.devices.Later (r.toHost b).2.devices := by
  refine .of_devices ?_
  unfold toHost
  cases there : r.inventory with
  | none => cases b.hostValue? <;> rfl
  | some v =>
      cases b.hostValue? with
      | some value => rfl
      | none =>
          simp only [devices, there, Inventory.toHost]
          cases b.payload with
          | host value => rfl
          | device place => exact v.devices_download place

end Resources

/-- What is kept of resources also while devices are used, whatever becomes of them. -/
structure Environment.Allows (e : Environment) (rel : Resources → Resources → Prop) : Prop
    extends e.Hosts rel where
  inventory : ∀ r inventory, r.devices.Later (inventory.getD default) → rel r { r with inventory }

theorem Environment.allows_true (e : Environment) : e.Allows fun _ _ => True where
  refl _ := trivial
  fetchKeys _ _ _ := trivial
  remotes _ _ _ _ _ _ := trivial
  toHost _ _ := trivial
  inventory _ _ _ := trivial

/-- A payload is on the host unless it was planned to stay on its device. -/
def Plan.Leaves (p : Plan) (i : Nat) (payload : Payload) : Prop :=
  ∀ place, payload = .device place → p.isResident i = true

theorem Plan.leaves_host {p : Plan} {i : Nat} {v : Value} : p.Leaves i (.host v) := nofun

/-- A payload is on the host. -/
def Payload.AtHome (payload : Payload) : Prop := ∃ v, payload = .host v

/-! ## jobs of a node -/

namespace NodeJob

variable {α β : Type} {rel : Resources → Resources → Prop} {good : α → Prop}

/-- A job of a node changes the resources alone, within a relation, and its result is as told. -/
def Confined (rel : Resources → Resources → Prop) (good : α → Prop) (j : NodeJob α) : Prop :=
  j.Ensures (fun _ => True) (fun r r' => r.Confines r' ∧ rel r.resources r'.resources) good
    fun _ => True

theorem Confined.pure {a : α} (h : good a) : (Pure.pure a : NodeJob α).Confined rel good := h

theorem Confined.bind {goal : β → Prop} {j : NodeJob α} {k : α → NodeJob β}
    (h : j.Confined rel good) (hk : ∀ a, good a → (k a).Confined rel goal) :
    (j >>= k).Confined rel goal :=
  Ensures.bind h hk

/-- A job that counts on nothing may follow. -/
theorem Confined.andThen {goal : β → Prop} {j : NodeJob α} {k : α → NodeJob β}
    (h : j.Confined rel fun _ => True) (hk : ∀ a, (k a).Confined rel goal) :
    (j >>= k).Confined rel goal :=
  .bind h fun a _ => hk a

theorem Confined.ofExcept {r : Except RunError α} :
    (NodeJob.ofExcept r).Confined rel fun _ => True := by
  cases r <;> exact trivial

theorem Confined.onResources {act : Resources → α × Resources} (kept : ∀ r, rel r (act r).2) :
    (NodeJob.onResources act).Confined rel fun _ => True :=
  Ensures.lift (Job.Ensures.atomic fun r _ => ⟨⟨rfl, kept r.resources⟩, trivial⟩)

theorem Confined.tryResources {act : Resources → Except RunError α × Resources}
    (kept : ∀ r, rel r (act r).2) : (NodeJob.tryResources act).Confined rel fun _ => True :=
  .andThen (.onResources kept) fun _ => .ofExcept

theorem Confined.ofOutcome {n : Node} {o : Outcome RunError α}
    (h : ∀ a, o = .done a → good a) : (NodeJob.ofOutcome n o).Confined rel good := by
  cases o with
  | done a => exact h a rfl
  | failed err => exact trivial
  | crashed text => exact trivial

theorem Confined.tell {calls : List PrimitiveCall} :
    (NodeJob.tell calls).Confined rel fun _ => True :=
  Ensures.tell trivial

theorem Confined.wait {ready : Resources → Bool} : (NodeJob.wait ready).Confined rel fun _ => True :=
  Ensures.lift (j := Job.wait _) trivial

end NodeJob

/-! ## backends -/

/-- What an operation leaves on its device is there because it was to be kept. -/
def Inventory.Keeps (keep : Bool) (out : Outcome DeviceError (Payload × DeviceId)) : Prop :=
  ∀ place id, out = .done (.device place, id) → keep = true

theorem Inventory.keeps_operate (op : Operation) (inputs : List Buffer) (keys : OperationKeys)
    (nonce : UInt64) (keep : Bool) :
    (operate op inputs keys nonce keep).Ensures (fun _ => True) Inventory.Later
      (Inventory.Keeps keep) := by
  have failed {i : Nat} {moved : List DeviceHandle} {err : DeviceError} :
      (do unstage i moved; return .failed err :
        Job Inventory (Outcome DeviceError (Payload × DeviceId))).Ensures
        (fun _ => True) Inventory.Later (Inventory.Keeps keep) :=
    .bind (Ages.unstage i moved) fun _ _ => nofun
  refine .bind Ages.select fun selected _ => ?_
  cases selected with
  | error err => exact nofun
  | ok i =>
      refine .bind (Ages.stageAll i [] [] inputs) fun ⟨staged, moved⟩ _ => ?_
      cases staged with
      | error err => exact failed
      | ok handles =>
          refine .bind (Ages.compute i op handles keys nonce) fun computed _ => ?_
          cases computed with
          | failed err => exact failed
          | crashed text => exact .bind (Ages.unstage i moved) fun _ _ => nofun
          | done h =>
              refine .bind (Ages.unstage i moved) fun _ _ => .bind Ages.look fun id _ => ?_
              by_cases kept : keep = true
              · rw [if_pos kept]
                exact fun _ _ _ => kept
              · rw [if_neg kept]
                refine .bind (Ages.download ⟨i, h⟩) fun words _ => .bind (Ages.free ⟨i, h⟩) fun _ _ => ?_
                cases words with
                | ok words => exact nofun
                | error err => exact nofun

section Hosts

variable {e : Environment} {p : Plan} {n : Node} {q : Partition}
  {rel : Resources → Resources → Prop}

theorem confined_readInputs (hosts : e.Hosts rel) (slots : List Nat) :
    (readInputs p n slots).Confined rel fun _ => True := by
  induction slots with
  | nil => exact .pure trivial
  | cons slot rest ih =>
      refine .andThen (.lift (.look fun _ _ => ⟨⟨rfl, hosts.refl _⟩, trivial⟩)) fun b => ?_
      cases b with
      | none => exact .ofExcept
      | some b => exact .andThen ih fun _ => .pure trivial

theorem confined_hostCiphertexts (hosts : e.Hosts rel) (bs : List Buffer) :
    (hostCiphertexts bs).Confined rel fun _ => True := by
  induction bs with
  | nil => exact .pure trivial
  | cons b rest ih =>
      refine .andThen (.tryResources (hosts.toHost b)) fun v => ?_
      cases v with
      | ciphertext words => exact .andThen ih fun _ => .pure trivial
      | cleartext number => exact .ofExcept
      | simulated s => exact .ofExcept

theorem confined_sourcePartition :
    (NodeJob.ofExcept (sourcePartition e n)).Confined rel fun source =>
      sourcePartition e n = .ok source := by
  cases found : sourcePartition e n with
  | ok source => exact rfl
  | error err => exact trivial

theorem confined_keysFor (hosts : e.Hosts rel) (known : q ∈ e.partitions.partitions) :
    (keysFor e n q).Confined rel fun _ => True := by
  have fetch {q : Partition} (known : q ∈ e.partitions.partitions) :
      (NodeJob.tryResources (Resources.fetchKeys q e.seed)).Confined rel fun _ => True :=
    .tryResources (hosts.fetchKeys q known)
  refine .andThen (fetch known) fun output => .bind confined_sourcePartition fun source found => ?_
  cases source with
  | none => exact .pure trivial
  | some source => exact .andThen (fetch (mem_of_sourcePartition found)) fun _ => .pure trivial

theorem confined_runOnProcessor (hosts : e.Hosts rel) (known : q ∈ e.partitions.partitions)
    (bs : List Buffer) : (runOnProcessor e n q bs).Confined rel Payload.AtHome :=
  .andThen (confined_hostCiphertexts hosts bs) fun _ => .andThen (confined_keysFor hosts known) fun _ =>
    .andThen .tell fun _ => .andThen (.ofOutcome fun _ _ => trivial) fun _ => .pure ⟨_, rfl⟩

theorem confined_runSimulated (rel : Resources → Resources → Prop) (bs : List Buffer) :
    (runSimulated e n q bs).Confined rel Payload.AtHome := by
  refine .andThen ?_ fun _ => .andThen .ofExcept fun _ =>
    .andThen (.ofOutcome fun _ _ => trivial) fun _ => .pure ⟨_, rfl⟩
  induction bs with
  | nil => exact .pure trivial
  | cons b rest ih =>
      rw [List.mapM_cons]
      refine .andThen ?_ fun _ => .andThen ih fun _ => .pure trivial
      split
      · exact .pure trivial
      · exact .ofExcept

theorem Environment.Hosts.runRemote (hosts : e.Hosts rel) (worker : Nat) (n : Node)
    (known : q ∈ e.partitions.partitions) {source : Option Partition}
    (other : ∀ q', source = some q' → q' ∈ e.partitions.partitions) (seed : KeySeed)
    (inputs : List Ciphertext) (nonce : UInt64) (r : Resources) :
    rel r (r.runRemote worker n q source seed inputs nonce).2 := by
  unfold Resources.runRemote
  cases there : r.remotes[worker]? with
  | none => exact hosts.refl r
  | some w => exact hosts.remotes r worker w _ there (.execute n known other seed inputs nonce)

theorem Environment.Hosts.queueUp (hosts : e.Hosts rel) (worker : Nat) (r : Resources) :
    rel r (r.queueUp worker).2 := by
  unfold Resources.queueUp
  cases there : r.remotes[worker]? with
  | none => exact hosts.refl r
  | some w => exact hosts.remotes r worker w _ there (.queue _)

theorem Environment.Hosts.leaveLink (hosts : e.Hosts rel) (worker : Nat) (r : Resources) :
    rel r (r.leaveLink worker) := by
  unfold Resources.leaveLink
  cases there : r.remotes[worker]? with
  | none =>
      rw [List.modify_eq_self (List.getElem?_eq_none_iff.mp there)]
      exact hosts.refl r
  | some w =>
      rw [List.modify_eq_set_getElem?, there]
      exact hosts.remotes r worker w _ there (.queue _)

theorem confined_runOnRemote (hosts : e.Hosts rel) (known : q ∈ e.partitions.partitions)
    (worker : Nat) (bs : List Buffer) :
    (runOnRemote e worker n q bs).Confined rel Payload.AtHome := by
  refine .andThen (.onResources hosts.refl) fun there => ?_
  have sent : (do
      let words ← hostCiphertexts bs
      let nonce := nodeNonce n.id words
      let source ← .ofExcept (sourcePartition e n)
      let ticket ← NodeJob.onResources (Resources.queueUp worker)
      NodeJob.wait (Resources.mayUse worker ticket)
      let answer ← NodeJob.onResources
        (Resources.runRemote worker n q source e.seed words nonce)
      NodeJob.tell answer.2
      NodeJob.onResources fun r => ((), r.leaveLink worker)
      return .host (.ciphertext (← .ofExcept answer.1)) : NodeJob Payload).Confined rel
      Payload.AtHome := by
    refine .andThen (confined_hostCiphertexts hosts bs) fun words => .bind confined_sourcePartition
      fun source found => ?_
    have other : ∀ q', source = some q' → q' ∈ e.partitions.partitions := by
      rintro q' rfl
      exact mem_of_sourcePartition found
    exact .andThen (.onResources (hosts.queueUp worker)) fun _ => .andThen .wait fun _ =>
      .andThen (.onResources (hosts.runRemote worker n known other e.seed words _)) fun _ =>
      .andThen .tell fun _ => .andThen (.onResources (hosts.leaveLink worker)) fun _ =>
      .andThen .ofExcept fun _ => .pure ⟨_, rfl⟩
  cases there
  · exact .andThen .ofExcept fun _ => sent
  · exact sent

end Hosts

section Backends

variable {e : Environment} {p : Plan} {n : Node} {q : Partition}
  {rel : Resources → Resources → Prop}

theorem confined_runOnDevice (allows : e.Allows rel) (known : q ∈ e.partitions.partitions) (i : Nat)
    (bs : List Buffer) : (runOnDevice e p i n q bs).Confined rel fun out => p.Leaves i out.1 := by
  refine .andThen (confined_keysFor allows.toHosts known) fun keys => ?_
  have operated := Inventory.keeps_operate n.op bs keys
    (nodeNonce n.id (bs.filterMap fun b => b.hostValue? >>= Value.ciphertext?)) (p.isResident i)
  refine .bind (.lift (operated.within (fun _ _ => trivial) fun _ _ _ later =>
    ⟨rfl, allows.inventory _ _ later⟩)) fun out kept => ?_
  refine .ofOutcome fun made done place device => ?_
  cases out with
  | done result =>
      obtain rfl : result = made := Outcome.done.inj done
      exact kept place result.2 (by rw [← device])
  | failed err => contradiction
  | crashed text => contradiction

/-- A node gives a payload where its backend may leave it. -/
theorem confined_runOn (allows : e.Allows rel) (known : q ∈ e.partitions.partitions) (target : Target)
    (i : Nat) (bs : List Buffer) :
    (runOn e p target i n q bs).Ensures (fun _ => True)
      (fun r r' => r.Confines r' ∧ rel r.resources r'.resources)
      fun ran => ∀ payload, ran.1 = .ok payload → p.Leaves i payload := by
  have hosts := allows.toHosts
  have home {r : Except RunError Payload} (h : Settles Payload.AtHome (fun _ => True) r) :
      ∀ payload, r = .ok payload → p.Leaves i payload := by
    rintro payload rfl
    obtain ⟨v, rfl⟩ := h
    exact Plan.leaves_host
  cases target with
  | simulation =>
      exact Job.Ensures.bind (confined_runSimulated rel bs) fun r h => home h
  | cpu => exact Job.Ensures.bind (confined_runOnProcessor hosts known bs) fun r h => home h
  | remote w => exact Job.Ensures.bind (confined_runOnRemote hosts known w bs) fun r h => home h
  | accelerator =>
      refine Job.Ensures.bind (confined_runOnDevice allows known i bs) fun r h => ?_
      cases r with
      | ok made =>
          rintro payload ok
          exact Except.ok.inj ok ▸ h
      | error err =>
          dsimp only
          split
          · have counted : (Job.change fun r : Run =>
                { r with resources := r.resources.recordFallback }).Ensures
                (fun _ => True) (fun r r' => r.Confines r' ∧ rel r.resources r'.resources)
                fun _ => True :=
              .change (fun r _ => ⟨rfl, allows.inventory _ _ r.resources.later_recordFallback⟩) trivial
            exact Job.Ensures.bind counted fun _ _ =>
              Job.Ensures.bind (confined_runOnProcessor hosts known bs) fun r h => home h
          · exact nofun

/-- A node on whatever backend works on the resources alone, and gives a buffer where its backend may
leave it. -/
theorem confined_perform (allows : e.Allows rel) (i : Nat) :
    (perform e p i).Ensures (fun _ => True)
      (fun r r' => r.Confines r' ∧ rel r.resources r'.resources) fun done =>
      done.record.node = (p.graph.node i).id ∧
        ∀ b, done.result = .ok b → p.Leaves i b.payload := by
  dsimp only [perform]
  cases known : e.partition (p.graph.node i).partition with
  | error err => exact ⟨rfl, nofun⟩
  | ok q =>
      refine Job.Ensures.bind (confined_readInputs allows.toHosts _) fun inputs _ => ?_
      cases inputs with
      | error err => exact ⟨rfl, nofun⟩
      | ok bs =>
          refine Job.Ensures.bind
            (confined_runOn allows (Environment.mem_of_partition known) _ i bs) ?_
          rintro ⟨payload, placement, fellBack⟩ leaves
          refine ⟨rfl, fun b made => ?_⟩
          obtain ⟨payload', ok, rfl⟩ := Except.exists_of_map made
          exact leaves payload' ok

end Backends

/-! ## the conduct of all backends -/

/-- What every backend keeps to. -/
def Conduct.confined (e : Environment) (p : Plan) : Conduct e p where
  kept _ _ := True
  good _ _ := True
  bad _ _ := True
  perm _ _ _ _ _ := trivial
  withCancellation _ _ _ _ := trivial
  announce _ _ _ _ := trivial
  drop _ _ _ _ _ _ := trivial
  perform i _ inputs _ := by
    refine (confined_perform e.allows_true i).tracks (fun _ _ => trivial)
      (fun _ _ _ same => ⟨fun _ _ => trivial, same.1⟩) ?_
    rintro done ⟨named, leaves⟩
    refine ⟨named, ?_⟩
    cases result : done.result with
    | error err => exact ⟨fun _ _ _ => trivial, trivial⟩
    | ok b =>
        have leaves := leaves b result
        obtain ⟨v, own, stands⟩ : ∃ v own, b.payload.Stands v own := by
          cases b.payload with
          | host v => exact ⟨v, [], .host v⟩
          | device place => exact ⟨.ciphertext [], _, .device place []⟩
        refine ⟨own, fun _ _ _ => trivial, ⟨v, stands, trivial⟩, fun resident => ?_⟩
        obtain ⟨place, found⟩ := Option.isSome_iff_exists.mp resident
        refine ⟨i, leaves place ?_, rfl⟩
        unfold Buffer.resident? at found
        split at found
        · contradiction
        · next device => rw [device, Option.some.inj found]

/-- An argument is put in place on the host. -/
theorem Run.argument_host {e : Environment} {supplied : List (ValueId × Value)} {value : ValueId}
    {partition : PartitionId} {b : Buffer}
    (h : Run.argument e supplied value partition = .ok b) : ∃ x, b.payload = .host x := by
  obtain ⟨-, -, x, -, -, -, rfl⟩ := Run.exists_of_argument h
  exact ⟨x, rfl⟩

/-- What is asked of arguments is that they are on the host. -/
theorem Stock.admits_confined {e : Environment} {p : Plan} {supplied : List (ValueId × Value)} :
    Stock.Admits e p supplied (Conduct.confined e p).good :=
  fun _ _ _ _ _ _ bound => (Run.argument_host bound).imp fun _ host => ⟨host, trivial⟩

end HomCircuit
