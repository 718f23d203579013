import HomCircuit.Proofs.Backend.Memory

/-!
# HomCircuit.Proofs.Backend.Transfers

What one device counts of an operation that is sent to it.

```
stage      an upload for each input on the host         its words go to the device
compute    an execution
settle     nothing, or a download of the output         its words come back
```

There is one device, so that whatever is resident anywhere is resident there. Others may use it between
the sections of an operation: what an operation counts is told by the difference that its own sections
make.

* `TransferCounters` — counts are added up;
* `Payload.moved`, `Payload.fetched` — what is counted for an input and for an output;
* `Inventory.Single`, `Inventory.Charges` — the device between two sections, and what a section counts;
* `Inventory.charges_operate` — what an operation with a result has counted, and where its output is.
-/

namespace HomCircuit

/-! ## counts -/

namespace TransferCounters

/-- Two counts together. -/
def plus (a b : TransferCounters) : TransferCounters where
  uploads := a.uploads + b.uploads
  downloads := a.downloads + b.downloads
  bytesToDevice := a.bytesToDevice + b.bytesToDevice
  bytesToHost := a.bytesToHost + b.bytesToHost
  executions := a.executions + b.executions
  fallbacks := a.fallbacks + b.fallbacks

instance : Add TransferCounters := ⟨plus⟩

instance : Zero TransferCounters := ⟨{}⟩

theorem add_def (a b : TransferCounters) : a + b = a.plus b := rfl

theorem zero_def : (0 : TransferCounters) = {} := rfl

instance : AddCommMonoid TransferCounters where
  add_assoc a b c := by simp only [add_def, plus, Nat.add_assoc]
  zero_add a := by simp only [add_def, zero_def, plus, Nat.zero_add]
  add_zero _ := rfl
  add_comm a b := by simp only [add_def, plus, Nat.add_comm]
  nsmul := nsmulRec

/-- One movement to the device. -/
def up (words : Nat) : TransferCounters := { uploads := 1, bytesToDevice := words * 8 }

/-- One movement to the host. -/
def down (words : Nat) : TransferCounters := { downloads := 1, bytesToHost := words * 8 }

/-- One execution. -/
def ran : TransferCounters := { executions := 1 }

end TransferCounters

open TransferCounters

/-- What is counted when a payload is brought to the device. -/
def Payload.moved : Payload → TransferCounters
  | .host (.ciphertext words) => up words.length
  | _ => 0

/-- What was counted when a payload was left on the device, or brought back from it. -/
def Payload.fetched : Payload → TransferCounters
  | .host (.ciphertext words) => down words.length
  | _ => 0

/-- A payload is on a device with a number, or it is a ciphertext on the host. -/
def Payload.Settled (id : DeviceId) (keep : Bool) (payload : Payload) : Prop :=
  if keep then ∃ place, payload = .device place ∧ place.handle.device = id
  else ∃ words, payload = .host (.ciphertext words)

/-! ## sections -/

namespace Inventory

/-- There is one device, and what a job has put there is there, or gone. A job has in hand what it has
counted, and what it has put on the device. -/
structure Single (id : DeviceId) (own : TransferCounters × List Deposit) (v : Inventory) : Prop where
  size : v.devices.size = 1
  label : (v.device 0).id = id
  recalls : ∀ x ∈ own.2, v.Recalls x

/-- What a section counts and puts on the device. -/
structure Charges (own own' : TransferCounters × List Deposit) (v v' : Inventory) : Prop where
  later : v.Later v'
  counted : ∃ n, own'.1 = own.1 + n ∧ v'.counters = v.counters + n
  recalls : ∀ x ∈ own'.2, v'.Recalls x

variable {id : DeviceId} {own own' : TransferCounters × List Deposit} {v v' : Inventory}

/-- What others do to the device leaves it the one device, with what is known to be there. -/
theorem Single.later (s : Single id own v) (later : v.Later v') (recalls : ∀ x ∈ own'.2, v'.Recalls x) :
    Single id own' v' where
  size := later.size.trans s.size
  label := (later.device 0 (by rw [s.size]; exact Nat.one_pos)).id.trans s.label
  recalls

/-- A section that counts something and puts nothing on the device. -/
theorem Single.counts (s : Single id own v) (later : v.Later v') {n : TransferCounters}
    (counted : v'.counters = v.counters + n) : Charges own (own.1 + n, own.2) v v' where
  later
  counted := ⟨n, rfl, counted⟩
  recalls x mem := (s.recalls x mem).later later

/-- A section that counts nothing. -/
theorem Single.silent (s : Single id own v) (later : v.Later v') (same : v'.counters = v.counters) :
    Charges own own v v' where
  later
  counted := ⟨0, (add_zero _).symm, same.trans (add_zero _).symm⟩
  recalls x mem := (s.recalls x mem).later later

/-- The one device. -/
theorem Single.inside (s : Single id own v) : 0 < v.devices.size := by
  rw [s.size]
  exact Nat.one_pos

/-- A section that makes an allocation and counts it, or is refused and counts nothing. -/
theorem charges_allocation {act : Inventory → Except DeviceError DeviceHandle × Inventory}
    {words : Ciphertext} {n : TransferCounters} (allocates : ∀ v, Allocates 0 words v (act v))
    (counted : ∀ v, Settles (fun h => h.words = words.length → (act v).2.counters = v.counters + n)
      (fun _ => (act v).2.counters = v.counters) (act v).1) :
    Job.Tracks (Single id) Charges
      (fun own' => Settles
        (fun h => h.words = words.length ∧ h.device = id ∧
          own' = (own.1 + n, ⟨⟨0, h⟩, words⟩ :: own.2))
        fun _ => own' = own) own
      (Job.atomic act) := by
  refine .atomic fun v s => ?_
  have allocates := allocates v
  have counted := counted v
  have later := allocates.later
  unfold Allocates at allocates
  cases result : (act v).1 with
  | error err =>
      rw [result] at allocates counted
      exact ⟨own, s.silent later counted, rfl⟩
  | ok h =>
      rw [result] at allocates counted
      obtain ⟨d, made, devices⟩ := allocates
      have size : h.words = words.length := by
        unfold Device.allocate at made
        dsimp only at made
        split at made
        · contradiction
        · obtain ⟨rfl, -⟩ := Prod.mk.inj (Except.ok.inj made)
          rfl
      obtain ⟨grown, label, -, given, found⟩ := Device.allocated made
      have here : (act v).2.device 0 = d := by
        rw [device, devices, ← device, device_setDevice s.inside, if_pos rfl]
      have recalls : (act v).2.Recalls ⟨⟨0, h⟩, words⟩ :=
        { inside := by rw [devices, size_setDevice]; exact s.inside
          label := by rw [here, grown.id]; exact label
          given := by rw [here]; exact given
          words := fun ws there => by
            rw [here, found] at there
            exact (Option.some.inj there).symm }
      have counts := s.counts later (counted size)
      exact ⟨(own.1 + n, ⟨⟨0, h⟩, words⟩ :: own.2),
        { counts with recalls := List.forall_mem_cons.mpr ⟨recalls, counts.recalls⟩ },
        size, label.trans s.label, rfl⟩

theorem charges_upload (words : Ciphertext) :
    Job.Tracks (Single id) Charges
      (fun own' => Settles
        (fun _ => ∃ h, own' = (own.1 + up words.length, ⟨⟨0, h⟩, words⟩ :: own.2))
        fun _ => own' = own) own
      (Job.atomic (·.upload 0 words)) := by
  refine (charges_allocation (n := up words.length) (allocates_upload · 0 words)
    fun v => ?_).mono fun own' r settled =>
      settled.mono (fun h all => ⟨h, all.2.2⟩) fun _ same => same
  unfold Inventory.upload
  cases (v.device 0).upload words with
  | error err => exact rfl
  | ok out =>
      intro size
      simp only [count, setDevice, DeviceHandle.bytes, show out.1.words = words.length from size]
      rfl

theorem charges_keepOutput (words : Ciphertext) :
    Job.Tracks (Single id) Charges
      (fun own' => Settles
        (fun h => h.words = words.length ∧ h.device = id ∧
          own' = (own.1 + ran, ⟨⟨0, h⟩, words⟩ :: own.2))
        fun _ => own' = own) own
      (Job.atomic (·.keepOutput 0 words)) := by
  refine charges_allocation (allocates_keepOutput · 0 words) fun v => ?_
  unfold keepOutput
  cases (v.device 0).allocate words with
  | error err => exact rfl
  | ok out => exact fun _ => rfl

/-- A download is counted by the size of the allocation. -/
theorem counters_download (v : Inventory) (place : Resident) :
    Settles (fun _ => (v.download place).2.counters = v.counters + down place.handle.words)
      (fun _ => (v.download place).2.counters = v.counters) (v.download place).1 := by
  unfold Inventory.download
  cases (v.device place.owner).download place.handle with
  | error err => exact rfl
  | ok words => exact rfl

/-- What was put in an allocation is what comes back. -/
theorem charges_download {x : Deposit} (mem : x ∈ own.2) :
    Job.Tracks (Single id) Charges
      (fun own' => Settles
        (fun words => words = x.words ∧ own' = (own.1 + down x.place.handle.words, own.2))
        fun _ => own' = own) own
      (Job.atomic (·.download x.place)) := by
  refine .atomic fun v s => ?_
  have later : v.Later (v.download x.place).2 := .of_devices (v.devices_download _)
  have counted := v.counters_download x.place
  cases result : (v.download x.place).1 with
  | error err =>
      rw [result] at counted
      exact ⟨own, s.silent later counted, rfl⟩
  | ok words =>
      rw [result] at counted
      exact ⟨_, s.counts later counted, (s.recalls x mem).download result, rfl⟩

theorem charges_free (place : Resident) :
    Job.Tracks (Single id) Charges (fun own' _ => own' = own) own (Job.change (·.free place)) :=
  .change fun v s => ⟨own, s.silent (.free v place) rfl, rfl⟩

theorem charges_look {α : Type} (f : Inventory → α) :
    Job.Tracks (Single id) Charges (fun own' _ => own' = own) own (Job.look f) :=
  .look fun _ s => ⟨s.silent (.of_devices rfl) rfl, rfl⟩

/-! ## one operation -/

theorem charges_unstage (moved : List DeviceHandle) :
    Job.Tracks (Single id) Charges (fun own' _ => own' = own) own (unstage 0 moved) := by
  induction moved with
  | nil => exact rfl
  | cons h rest ih =>
      refine .bind (charges_free _) ?_
      rintro own' - rfl
      exact ih

/-- An input that is on the host is moved in, and one that is on the device is taken as it is. -/
theorem charges_stage {b : Buffer}
    (home : ∀ place, b.payload = .device place → place.handle.device = id) :
    Job.Tracks (Single id) Charges
      (fun own' r => ∀ x, r = .ok x → own'.1 = own.1 + b.payload.moved) own (stage 0 b) := by
  unfold stage
  cases payload : b.payload with
  | host value =>
      cases value with
      | ciphertext words =>
          refine .bind (charges_upload words) fun own' r settled => ?_
          cases r with
          | error err => exact nofun
          | ok h =>
              obtain ⟨-, rfl⟩ := settled
              exact fun _ _ => rfl
      | cleartext number =>
          exact .look fun v s => ⟨s.silent (.of_devices rfl) rfl, nofun⟩
      | simulated stand =>
          exact .look fun v s => ⟨s.silent (.of_devices rfl) rfl, nofun⟩
  | device place =>
      refine .bind (P := fun own' here => own' = own ∧ here = true)
        (.look fun v s => ⟨s.silent (.of_devices rfl) rfl, rfl, ?_⟩) ?_
      · rw [s.label, home place payload]
        exact beq_self_eq_true id
      · rintro own' here ⟨rfl, rfl⟩
        exact fun _ _ => (add_zero _).symm

/-- So are all inputs. -/
theorem charges_stageAll {bs : List Buffer} {handles moved : List DeviceHandle}
    (home : ∀ b ∈ bs, ∀ place, b.payload = .device place → place.handle.device = id) :
    Job.Tracks (Single id) Charges
      (fun own' r => ∀ hs, r.1 = .ok hs → own'.1 = own.1 + (bs.map (·.payload.moved)).sum) own
      (stageAll 0 handles moved bs) := by
  induction bs generalizing own handles moved with
  | nil => exact fun _ _ => (add_zero _).symm
  | cons b rest ih =>
      obtain ⟨first, others⟩ := List.forall_mem_cons.mp home
      refine .bind (charges_stage first) fun own' r here => ?_
      cases r with
      | error err => exact nofun
      | ok x =>
          refine (ih others).mono fun own'' r both hs same => ?_
          rw [both hs same, here x rfl, List.map_cons, List.sum_cons, add_assoc]

/-- What primitives give becomes an allocation, and an execution. -/
theorem charges_kernel (id' : DeviceId) (made : Outcome PrimitiveError Ciphertext) :
    Job.Tracks (Single id) Charges
      (fun own' => Outcome.Gives fun h => ∃ ct, h.words = ct.length ∧ h.device = id ∧
        own' = (own.1 + ran, ⟨⟨0, h⟩, ct⟩ :: own.2)) own
      (match made with
        | .crashed text => return .crashed text
        | .failed e => return .failed (.kernel id' e.message)
        | .done words => return .ofExcept (← Job.atomic (·.keepOutput 0 words)) :
          Job Inventory (Outcome DeviceError DeviceHandle)) := by
  cases made with
  | crashed text => exact Outcome.gives_crashed
  | failed err => exact Outcome.gives_failed
  | done ct =>
      refine .bind (charges_keepOutput ct) fun own' r settled => ?_
      cases r with
      | error err => exact Outcome.gives_failed
      | ok h =>
          intro h' same
          obtain rfl := Outcome.done.inj same
          exact ⟨ct, settled⟩

theorem charges_compute (op : Operation) (handles : List DeviceHandle) (keys : OperationKeys)
    (nonce : UInt64) :
    Job.Tracks (Single id) Charges
      (fun own' => Outcome.Gives fun h => ∃ ct, h.words = ct.length ∧ h.device = id ∧
        own' = (own.1 + ran, ⟨⟨0, h⟩, ct⟩ :: own.2)) own
      (compute 0 op handles keys nonce) := by
  refine .bind (charges_look _) ?_
  rintro own' ⟨inputs, d⟩ rfl
  cases inputs with
  | error err => exact Outcome.gives_failed
  | ok inputs =>
      dsimp only
      split
      · exact .bind (P := fun own'' _ => own'' = own') (.tell rfl) fun _ _ here =>
          here ▸ charges_kernel d.id _
      · exact charges_kernel d.id _

/-- The output stays on the device, or a download is counted for it. -/
theorem charges_settle {h : DeviceHandle} {ct : Ciphertext} (keep : Bool)
    (size : h.words = ct.length) (label : h.device = id)
    (mem : (⟨⟨0, h⟩, ct⟩ : Deposit) ∈ own.2) :
    Job.Tracks (Single id) Charges
      (fun own' => Outcome.Gives fun out =>
        own'.1 = own.1 + out.1.fetched ∧ out.1.Settled id keep) own
      (settle 0 h keep) := by
  refine .bind (charges_look _) ?_
  rintro own' id' rfl
  cases keep with
  | true =>
      intro out same
      obtain rfl := Outcome.done.inj same
      exact ⟨(add_zero _).symm, ⟨⟨0, h⟩, rfl, label⟩⟩
  | false =>
      refine .bind (charges_download mem) fun own r settled => ?_
      refine .bind (charges_free _) ?_
      rintro own'' - rfl
      cases r with
      | error err => exact Outcome.gives_failed
      | ok words =>
          obtain ⟨rfl, rfl⟩ := settled
          intro out same
          obtain rfl := Outcome.done.inj same
          refine ⟨?_, ⟨_, rfl⟩⟩
          simp only [Payload.fetched, size]

/-- An operation that has a result has counted an upload for each input on the host, an execution, and a
download if its output does not stay on the device. -/
theorem charges_operate (own : TransferCounters × List Deposit) (op : Operation)
    {inputs : List Buffer} (keys : OperationKeys) (nonce : UInt64) (keep : Bool)
    (home : ∀ b ∈ inputs, ∀ place, b.payload = .device place → place.handle.device = id) :
    Job.Tracks (Single id) Charges
      (fun own' => Outcome.Gives fun out =>
        own'.1 = own.1 + (inputs.map (·.payload.moved)).sum + ran + out.1.fetched ∧
          out.1.Settled id keep) own
      (operate op inputs keys nonce keep) := by
  refine .bind (P := fun own' selected => own' = own ∧ ∀ i, selected = .ok i → i = 0)
    (.atomic fun v s => ?_) ?_
  · refine ⟨own, s.silent (.of_devices v.devices_select) ?_, rfl, fun i selected => ?_⟩
    · unfold select
      split
      · rfl
      · split
        · rfl
        · split <;> rfl
    · have inside := lt_of_select selected
      rw [s.size] at inside
      exact Nat.lt_one_iff.mp inside
  rintro own' selected ⟨rfl, only⟩
  cases selected with
  | error err => exact Outcome.gives_failed
  | ok i =>
      obtain rfl := only i rfl
      refine .bind (charges_stageAll home) ?_
      rintro own ⟨staged, moved⟩ counted
      cases staged with
      | error err => exact .bind (charges_unstage moved) fun _ _ _ => Outcome.gives_failed
      | ok hs =>
          refine .bind (charges_compute op hs keys nonce) ?_
          intro own computed gives
          cases computed with
          | failed err => exact .bind (charges_unstage moved) fun _ _ _ => Outcome.gives_failed
          | crashed text => exact .bind (charges_unstage moved) fun _ _ _ => Outcome.gives_crashed
          | done h =>
              obtain ⟨ct, size, label, rfl⟩ := gives h rfl
              refine .bind (charges_unstage moved) ?_
              rintro own' - rfl
              refine (charges_settle keep size label List.mem_cons_self).mono
                fun own' out settled made same => ?_
              obtain ⟨total, there⟩ := settled made same
              exact ⟨by rw [total, counted hs rfl], there⟩

end Inventory

end HomCircuit
