import HomCircuit.Proofs.Backend.Transfers
import HomCircuit.Proofs.Schedule.Origins

/-!
# HomCircuit.Proofs.Schedule.Charges

What a node has counted when it has run, in a context with one device.

```
on the device       what is moved in   +  an execution  +  what is moved out
on the processor    what is moved out of the device
```

Sections of other nodes come between those of one node. So a job tells what its own sections count,
whatever it has counted before, and the counts of two jobs add up.

* `Payload.brought`, `Plan.charge` — what is counted for an input on the processor, and for a node;
* `Job.Charges`, `NodeJob.Charges` — jobs with what they count;
* `charges_perform` — what a node that gave a result has counted, and where its output is.
-/

namespace HomCircuit

open TransferCounters

/-! ## places -/

/-- What is counted when a payload is brought to the host. -/
def Payload.brought : Payload → TransferCounters
  | .host _ => 0
  | .device place => down place.handle.words

/-- A payload is a ciphertext on the host, unless it is kept on a device with a number. -/
def Payload.Rests (id : DeviceId) (keep : Bool) (payload : Payload) : Prop :=
  (∃ words, payload = .host (.ciphertext words)) ∨
    keep = true ∧ ∃ place, payload = .device place ∧ place.handle.device = id

theorem Payload.Settled.rests {id : DeviceId} {keep : Bool} {payload : Payload}
    (h : payload.Settled id keep) : payload.Rests id keep := by
  unfold Payload.Settled at h
  split at h
  · next kept => exact .inr ⟨kept, h⟩
  · exact .inl h

/-- What is counted for a node that runs where it was decided, by where its inputs and its output are. -/
def Plan.charge (p : Plan) (i : Nat) (inputs : List Buffer) (out : Payload) : TransferCounters :=
  if (p.graph.node i).eligible then (inputs.map (·.payload.moved)).sum + ran + out.fetched
  else (inputs.map (·.payload.brought)).sum

/-- Only what may be sent to a device stays there. -/
theorem Plan.eligible_of_isResident {p : Plan} {i : Nat} (resident : p.isResident i = true) :
    (p.graph.node i).eligible = true := by
  simp only [isResident, maySendToDevice, Bool.and_eq_true] at resident
  exact resident.1.1.2.1

/-! ## jobs -/

/-- What a section of a node finds: the one device, and the inputs in their slots. -/
structure Run.Meets (id : DeviceId) (inputs : List Shelved)
    (own : TransferCounters × List Deposit) (r : Run) : Prop where
  single : Inventory.Single id own r.resources.devices
  found : ∀ x ∈ inputs, r.arena.get? x.slot = some x.buffer

/-- What a section of a node counts. -/
def Run.Charges (own own' : TransferCounters × List Deposit) (r r' : Run) : Prop :=
  Inventory.Charges own own' r.resources.devices r'.resources.devices

/-- Whatever a job has counted before, it counts something more, and gives a result as told for that. -/
def Job.Charges {α : Type} (id : DeviceId) (inputs : List Shelved) (good : TransferCounters → α → Prop)
    (j : Job Run α) : Prop :=
  ∀ own, j.Tracks (Run.Meets id inputs) Run.Charges
    (fun own' a => ∃ n, own'.1 = own.1 + n ∧ good n a) own

/-- A job of a node that counts something, and gives a result as told for that; nothing is told of its
errors. -/
def NodeJob.Charges {α : Type} (id : DeviceId) (inputs : List Shelved)
    (good : TransferCounters → α → Prop) (j : NodeJob α) : Prop :=
  Job.Charges id inputs (fun n => Settles (good n) fun _ => True) j.run

section Jobs

variable {α β : Type} {id : DeviceId} {inputs : List Shelved} {P : TransferCounters → α → Prop}
  {Q : TransferCounters → β → Prop}

namespace Job.Charges

theorem pure {a : α} (h : P 0 a) : Job.Charges id inputs P (Pure.pure a) :=
  fun own => ⟨0, (add_zero own.1).symm, h⟩

/-- What two jobs count adds up. -/
theorem bind {j : Job Run α} {k : α → Job Run β} (h : j.Charges id inputs P)
    (hk : ∀ n a, P n a → (k a).Charges id inputs fun m => Q (n + m)) :
    (j >>= k).Charges id inputs Q := by
  refine fun own => .bind (h own) ?_
  rintro own' a ⟨n, counted, given⟩
  refine (hk n a given own').mono ?_
  rintro own'' b ⟨m, counted', given'⟩
  exact ⟨n + m, by rw [counted', counted, add_assoc], given'⟩

/-- One section. -/
theorem atomic {act : Run → α × Run}
    (h : ∀ own r, Run.Meets id inputs own r →
      ∃ n, Run.Charges own (own.1 + n, own.2) r (act r).2 ∧ P n (act r).1) :
    (Job.atomic act).Charges id inputs P := by
  refine fun own => .atomic fun r meets => ?_
  obtain ⟨n, charges, given⟩ := h own r meets
  exact ⟨_, charges, n, rfl, given⟩

/-- What leaves state and counters alone is not counted. -/
theorem of_ensures {j : Job Run α} {good : α → Prop}
    (h : j.Ensures (fun r => ∀ x ∈ inputs, r.arena.get? x.slot = some x.buffer) (fun r r' => r' = r)
      good) : j.Charges id inputs fun n a => n = 0 ∧ good a := by
  refine fun own => h.tracks (fun r meets => meets.found) (fun r r' meets same => ?_) fun a given =>
    ⟨0, (add_zero own.1).symm, rfl, given⟩
  exact same ▸ meets.single.silent (.of_devices rfl) rfl

end Job.Charges

namespace NodeJob.Charges

variable {j : NodeJob α} {k : α → NodeJob β} {n : Node}

theorem pure {a : α} (h : P 0 a) : NodeJob.Charges id inputs P (Pure.pure a) := Job.Charges.pure h

theorem bind (h : j.Charges id inputs P)
    (hk : ∀ n a, P n a → (k a).Charges id inputs fun m => Q (n + m)) :
    (j >>= k).Charges id inputs Q := by
  refine Job.Charges.bind h fun n r settled => ?_
  cases r with
  | ok a => exact hk n a settled
  | error err => exact Job.Charges.pure trivial

/-- A first job that counts nothing. -/
theorem andThen {F : α → Prop} (h : j.Charges id inputs fun n a => n = 0 ∧ F a)
    (hk : ∀ a, F a → (k a).Charges id inputs Q) : (j >>= k).Charges id inputs Q := by
  refine .bind h ?_
  rintro n a ⟨rfl, given⟩
  simpa only [zero_add] using hk a given

theorem ofExcept {r : Except RunError α} (h : ∀ a, r = .ok a → P 0 a) :
    (NodeJob.ofExcept r).Charges id inputs P := by
  cases r with
  | ok a => exact Job.Charges.pure (h a rfl)
  | error err => exact Job.Charges.pure trivial

theorem ofOutcome {o : Outcome RunError α} (h : o.Gives (P 0)) :
    (NodeJob.ofOutcome n o).Charges id inputs P := by
  cases o with
  | done a => exact .ofExcept fun a' same => Except.ok.inj same ▸ h a rfl
  | failed err => exact .ofExcept nofun
  | crashed text => exact .ofExcept nofun

theorem lift {j : Job Run α} (h : j.Charges id inputs P) :
    NodeJob.Charges id inputs P (ExceptT.lift j) :=
  Job.Charges.bind h fun n a given => Job.Charges.pure (by rwa [add_zero])

theorem tell {calls : List PrimitiveCall} :
    (NodeJob.tell calls).Charges id inputs fun n _ => n = 0 ∧ True :=
  .lift fun own => .tell ⟨0, (add_zero own.1).symm, rfl, trivial⟩

theorem tryResources {act : Resources → Except RunError α × Resources}
    (h : ∀ own r, Run.Meets id inputs own r → ∃ n,
      Inventory.Charges own (own.1 + n, own.2) r.resources.devices (act r.resources).2.devices ∧
        ∀ a, (act r.resources).1 = .ok a → P n a) :
    (NodeJob.tryResources act).Charges id inputs P := by
  have told : (NodeJob.onResources act).Charges id inputs fun n r => ∀ a, r = .ok a → P n a :=
    .lift (.atomic fun own r meets => h own r meets)
  refine .bind told fun n r given => ?_
  exact .ofExcept fun a same => by rw [add_zero]; exact given a same

end NodeJob.Charges

end Jobs

/-! ## a node -/

section Node

variable {e : Environment} {p : Plan} {id : DeviceId} {inputs : List Shelved} {n : Node}
  {q : Partition} {i : Nat}

theorem charges_fetchKeys (q : Partition) (seed : KeySeed) :
    (NodeJob.tryResources (Resources.fetchKeys q seed)).Charges id inputs
      fun n _ => n = 0 ∧ True :=
  .tryResources fun own r meets =>
    ⟨0, by rw [add_zero]; exact meets.single.silent (.of_devices rfl) rfl, fun _ _ => ⟨rfl, trivial⟩⟩

/-- To fetch keys is not counted. -/
theorem charges_keysFor : (keysFor e n q).Charges id inputs fun n _ => n = 0 ∧ True := by
  refine .andThen (charges_fetchKeys q e.seed) fun output _ => ?_
  refine .andThen (F := fun _ => True) (.ofExcept fun _ _ => ⟨rfl, trivial⟩) fun source _ => ?_
  cases source with
  | none => exact .pure ⟨rfl, trivial⟩
  | some source =>
      exact .andThen (charges_fetchKeys source e.seed) fun _ _ => .pure ⟨rfl, trivial⟩

/-- A copy to the host is counted where it is made from a device. -/
theorem charges_toHost (b : Buffer) :
    (NodeJob.tryResources (Resources.toHost b)).Charges id inputs fun n _ => n = b.payload.brought := by
  refine .tryResources fun own r meets => ?_
  have silent : Inventory.Charges own (own.1 + 0, own.2) r.resources.devices r.resources.devices := by
    rw [add_zero]
    exact meets.single.silent (.of_devices rfl) rfl
  unfold Resources.toHost
  cases payload : b.payload with
  | host v =>
      simp only [Buffer.hostValue?, payload]
      exact ⟨0, silent, fun _ _ => rfl⟩
  | device place =>
      simp only [Buffer.hostValue?, payload]
      cases there : r.resources.inventory with
      | none => exact ⟨0, silent, by simp⟩
      | some v =>
          have single := meets.single
          have same : r.resources.devices = v := by simp [Resources.devices, there]
          rw [same] at single ⊢
          have later : v.Later (v.download place).2 := .of_devices (v.devices_download place)
          have counted := v.counters_download place
          simp only [Inventory.toHost, payload]
          cases result : (v.download place).1 with
          | error err =>
              rw [result] at counted
              refine ⟨0, ?_, by simp [Except.map, Except.mapError]⟩
              rw [add_zero]
              exact single.silent later counted
          | ok words =>
              rw [result] at counted
              exact ⟨_, single.counts later counted, fun _ _ => rfl⟩

theorem charges_hostCiphertexts (bs : List Buffer) :
    (hostCiphertexts bs).Charges id inputs fun n _ => n = (bs.map (·.payload.brought)).sum := by
  induction bs with
  | nil => exact .pure rfl
  | cons b rest ih =>
      refine .bind (charges_toHost b) ?_
      rintro n v rfl
      cases v with
      | ciphertext words =>
          refine .bind ih ?_
          rintro n others rfl
          exact .pure (by rw [add_zero, List.map_cons, List.sum_cons])
      | cleartext number => exact .ofExcept nofun
      | simulated s => exact .ofExcept nofun

/-- The processor counts what it brings to the host, and leaves its output there. -/
theorem charges_runOnProcessor (bs : List Buffer) :
    (runOnProcessor e n q bs).Charges id inputs fun m payload =>
      m = (bs.map (·.payload.brought)).sum ∧ ∃ words, payload = .host (.ciphertext words) := by
  refine .bind (charges_hostCiphertexts bs) ?_
  rintro m words rfl
  refine .andThen charges_keysFor fun keys _ => .andThen .tell fun _ _ => ?_
  refine .andThen (F := fun _ => True) (.ofOutcome fun _ _ => ⟨rfl, trivial⟩) fun words _ => ?_
  exact .pure ⟨add_zero _, words, rfl⟩

/-- The device counts what it moves in, the execution, and what it moves out. -/
theorem charges_runOnDevice {bs : List Buffer}
    (home : ∀ b ∈ bs, ∀ place, b.payload = .device place → place.handle.device = id) :
    (runOnDevice e p i n q bs).Charges id inputs fun m out =>
      m = (bs.map (·.payload.moved)).sum + ran + out.1.fetched ∧
        out.1.Settled id (p.isResident i) := by
  refine .andThen charges_keysFor fun keys _ => ?_
  refine .bind (P := fun m out => out.Gives fun out =>
      m = (bs.map (·.payload.moved)).sum + ran + out.1.fetched ∧
        out.1.Settled id (p.isResident i)) (.lift ?_) fun m out gives => ?_
  · intro own
    have operates := (Inventory.charges_operate own n.op keys (nodeNonce n.id (hostWords bs))
      (p.isResident i) home).along (R := fun own own' => ∃ m, own'.1 = own.1 + m)
      (fun own => ⟨0, (add_zero _).symm⟩)
      (fun own own' own'' ⟨m, first⟩ ⟨m', second⟩ =>
        ⟨m + m', by rw [second, first, add_assoc]⟩)
      fun own own' v v' charges => charges.counted.imp fun m both => both.1
    refine Job.Tracks.mono (operates.within (fun own r meets => meets.single)
      fun own own' r v _ charges => charges) ?_
    rintro own' out ⟨⟨m, counted⟩, gives⟩
    cases out with
    | done out =>
        obtain ⟨told, settled⟩ := gives out rfl
        refine ⟨_, by rw [told, add_assoc, add_assoc, ← add_assoc _ ran], fun out' same => ?_⟩
        exact Outcome.done.inj same ▸ ⟨rfl, settled⟩
    | failed err => exact ⟨m, counted, nofun⟩
    | crashed text => exact ⟨m, counted, nofun⟩
  · refine .ofOutcome fun made done => ?_
    rw [add_zero]
    exact gives made (Outcome.eq_done_of_mapError done)

/-- The device counts a fallback. -/
theorem charges_recordFallback :
    (Job.change fun r : Run => { r with resources := r.resources.recordFallback }).Charges id inputs
      fun _ _ => True := by
  refine .atomic fun own r meets => ?_
  suffices ∃ n, r.resources.recordFallback.devices.counters = r.resources.devices.counters + n by
    obtain ⟨n, counted⟩ := this
    exact ⟨n, meets.single.counts r.resources.later_recordFallback counted, trivial⟩
  unfold Resources.devices Resources.recordFallback
  cases r.resources.inventory with
  | none => exact ⟨0, (add_zero _).symm⟩
  | some v => exact ⟨{ fallbacks := 1 }, rfl⟩

/-- A payload that a node gave, with what was counted for it. A node that fell back on the processor
may have counted whatever its device had come to. -/
def Plan.Charged (p : Plan) (id : DeviceId) (i : Nat) (bs : List Buffer) (m : TransferCounters)
    (payload : Payload) (fellBack : Bool) : Prop :=
  payload.Rests id (p.isResident i) ∧
    (fellBack = false → payload.Settled id (p.isResident i) ∧ m = p.charge i bs payload)

/-- A node where it was decided to run. -/
theorem charges_runOn (mode : e.mode = .accelerator) (accelerating : p.accelerating = true)
    (alone : p.worker? (p.graph.node i) = none) {bs : List Buffer}
    (home : ∀ b ∈ bs, ∀ place, b.payload = .device place → place.handle.device = id) :
    (runOn e p (choose (p.graph.node i) e.mode p.accelerating (p.worker? (p.graph.node i))).target i
      (p.graph.node i) q bs).Charges id inputs
      fun m out => ∀ payload, out.1 = .ok payload → p.Charged id i bs m payload out.2.2 := by
  have fallback (before : TransferCounters) :
      (do
        let result ← (runOnProcessor e (p.graph.node i) q bs).run
        return (result, .cpu, true) : Job Run (Except RunError Payload × Placement × Bool)).Charges
        id inputs fun m out => ∀ payload, out.1 = .ok payload →
          p.Charged id i bs (before + m) payload out.2.2 := by
    refine .bind (charges_runOnProcessor bs) fun m result settled => .pure ?_
    rintro payload rfl
    exact ⟨.inl settled.2, nofun⟩
  rw [mode, accelerating, alone]
  unfold choose
  cases eligible : (p.graph.node i).eligible with
  | false =>
      have away : p.isResident i = false :=
        Bool.eq_false_iff.mpr fun resident => by simp [p.eligible_of_isResident resident] at eligible
      refine .bind (charges_runOnProcessor bs) fun m result settled => .pure ?_
      rintro payload rfl
      obtain ⟨counted, host⟩ := settled
      refine ⟨.inl host, fun _ => ⟨by rwa [away], ?_⟩⟩
      rw [add_zero, counted, Plan.charge, eligible]
      rfl
  | true =>
      refine .bind (charges_runOnDevice home) fun m result settled => ?_
      cases result with
      | ok out =>
          obtain ⟨counted, settled⟩ := settled
          refine .pure ?_
          rintro payload same
          obtain rfl := Except.ok.inj same
          refine ⟨settled.rests, fun _ => ⟨settled, ?_⟩⟩
          rw [add_zero, counted, Plan.charge, if_pos eligible]
      | error err =>
          dsimp only
          split
          · refine .bind charges_recordFallback fun m' _ _ => ?_
            simpa only [add_assoc] using fallback (m + m')
          · exact .pure nofun

/-- What a node that gave a result has counted. -/
def Performed.Charged (p : Plan) (id : DeviceId) (i : Nat) (inputs : List Shelved)
    (m : TransferCounters) (done : Performed) : Prop :=
  ∀ b, done.result = .ok b →
    p.Charged id i (inputs.map Shelved.buffer) m b.payload done.record.fellBack

/-- A node that finds its inputs, on the host or on the device, counts what is told by where they are and
where its output is. -/
theorem charges_perform (mode : e.mode = .accelerator) (accelerating : p.accelerating = true)
    (alone : p.worker? (p.graph.node i) = none)
    (slots : inputs.map Shelved.slot = p.graph.inputsOf i)
    (home : ∀ x ∈ inputs, ∀ place, x.buffer.payload = .device place → place.handle.device = id) :
    (perform e p i).Charges id inputs fun m done => done.Charged p id i inputs m := by
  dsimp only [perform]
  cases known : e.partition (p.graph.node i).partition with
  | error err => exact .pure nofun
  | ok q =>
      rw [← slots]
      refine .bind (.of_ensures (ensures_readInputs_shelved fun x mem => mem)) ?_
      rintro m result ⟨rfl, read⟩
      cases result with
      | error err => exact read.elim
      | ok bs =>
          obtain rfl : bs = inputs.map Shelved.buffer := read
          simp only [zero_add]
          refine .bind (charges_runOn mode accelerating alone
            (List.forall_mem_map.mpr home)) ?_
          rintro m ⟨result, placement, fellBack⟩ charged
          refine .pure fun b made => ?_
          obtain ⟨payload, ok, rfl⟩ := Except.exists_of_map made
          rw [add_zero]
          exact charged payload ok

end Node

end HomCircuit
