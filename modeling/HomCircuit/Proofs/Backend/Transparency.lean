import HomCircuit.Proofs.Backend.Custody
import HomCircuit.Proofs.Primitive.Strict

/-!
# HomCircuit.Proofs.Backend.Transparency

An operation that runs on emulated devices at once, with no other job between its sections.

```
done, not kept    words of the reference arithmetic on the host     allocations as before
done, kept        the same words on the selected device             one allocation more
failed            —                                                 allocations as before
```

Three contracts of one and the same run come together: what is left on the devices, what is known of the
words there, and where the output goes.  None of them looks at which inputs are on the host, on the selected
device or on another, nor at the section in which the run fails.

* `Inventory.Emulated` — devices with numbers of their own, in balance, with the reference arithmetic;
* `Inventory.Carries` — the words of a buffer, on the host or in an allocation;
* `Inventory.delivers_proceed` — where the output of an operation goes;
* `Inventory.execute_transparent` — the table above.
-/

namespace HomCircuit

/-- A buffer is on a device, or it is a ciphertext. -/
def Buffer.Uploads (b : Buffer) : Prop :=
  ∀ value, b.payload = .host value → ∃ words, value = .ciphertext words

/-- A device stays in balance when something is freed, whether it is there or not. -/
theorem Device.balanced_free {d : Device} (balanced : d.Balanced) (h : DeviceHandle) :
    (d.free h).Balanced := by
  cases found : d.buffers.lookup h.slot with
  | none =>
      have same : d.free h = d := by simp [Device.free, found]
      rwa [same]
  | some words =>
      have mem := (KeyCache.lookup_eq_some_iff_mem balanced.distinct).mp found
      exact (balanced.free mem).1

namespace Inventory

/-- Devices as emulated ones are: in balance, with numbers of their own and the reference arithmetic.
Nothing is said of their sizes and faults. -/
structure Emulated (v : Inventory) : Prop where
  balanced : v.Balanced
  apart : v.ids.Nodup
  reference : ∀ i < v.devices.size, (v.device i).primitives = .reference

/-- The words of a buffer: they are on the host, or in an allocation on one of the devices. -/
inductive Carries (v : Inventory) (b : Buffer) (words : Ciphertext) : Prop
  | host (here : b.payload = .host (.ciphertext words))
  | device (place : Resident) (there : b.payload = .device place) (held : v.Holds ⟨place, words⟩)

/-- A buffer that is on a device is in an allocation there. -/
def Live (v : Inventory) (b : Buffer) : Prop :=
  ∀ place, b.payload = .device place → ∃ words, v.Holds ⟨place, words⟩

/-- The devices hold exactly the allocations that they held before and one more, with some words. -/
structure Gained (v : Inventory) (i : Nat) (h : DeviceHandle) (words : Ciphertext) (v' : Inventory) :
    Prop where
  size : v'.devices.size = v.devices.size
  holds : v'.Holds ⟨⟨i, h⟩, words⟩
  fresh : (v.device i).buffers.lookup h.slot = none
  here : (v'.device i).buffers.Perm ((h.slot, words) :: (v.device i).buffers)
  elsewhere : ∀ j < v.devices.size, j ≠ i → (v.device j).Restored (v'.device j)

variable {v v' : Inventory} {i : Nat} {inputs : List Buffer}

/-! ## where the output goes -/

/-- What an operation does once a device is selected, or none is. -/
def proceed (op : Operation) (inputs : List Buffer) (keys : OperationKeys) (nonce : UInt64)
    (keep : Bool) : Except DeviceError Nat → Job Inventory (Outcome DeviceError (Payload × DeviceId))
  | .error e => return .failed e
  | .ok i => do
    let (staged, moved) ← stageAll i [] [] inputs
    match staged with
    | .error e => unstage i moved; return .failed e
    | .ok handles =>
      match ← compute i op handles keys nonce with
      | .failed e => unstage i moved; return .failed e
      | .crashed text => unstage i moved; return .crashed text
      | .done h => unstage i moved; settle i h keep

/-- An operation that is run at once selects a device and proceeds. -/
theorem execute_eq (v : Inventory) (op : Operation) (inputs : List Buffer) (keys : OperationKeys)
    (nonce : UInt64) (keep : Bool) : v.execute op inputs keys nonce keep =
      (proceed op inputs keys nonce keep v.select.1).run v.select.2 := rfl

/-- Later devices are all that is known of what such a job leaves. -/
theorem Ages.ensures {α : Type} {j : Job Inventory α} (h : Ages j) :
    j.Ensures v.Later Later fun _ => True :=
  h.weaken (fun _ _ => trivial) (fun _ _ _ changed => changed) fun _ _ => trivial

/-- An input that is brought to a device was a ciphertext or on some device. -/
theorem delivers_stage (i : Nat) (b : Buffer) :
    (stage i b).Ensures v.Later Later (Settles (fun _ => b.Uploads) fun _ => True) := by
  by_cases uploads : b.Uploads
  · apply (Ages.stage i b).ensures.mono
    intro r _
    cases r with
    | error err => trivial
    | ok r => exact uploads
  · unfold stage
    cases payload : b.payload with
    | device place => exact absurd (by simp [Buffer.Uploads, payload]) uploads
    | host value =>
        cases value with
        | ciphertext words => exact absurd (by simp [Buffer.Uploads, payload]) uploads
        | cleartext number => exact .look fun s _ => ⟨.of_devices rfl, trivial⟩
        | simulated stand => exact .look fun s _ => ⟨.of_devices rfl, trivial⟩

theorem delivers_stageAll (i : Nat) (handles moved : List DeviceHandle) (bs : List Buffer) :
    (stageAll i handles moved bs).Ensures v.Later Later
      fun r => Settles (fun _ => ∀ b ∈ bs, b.Uploads) (fun _ => True) r.1 := by
  induction bs generalizing handles moved with
  | nil => simp [stageAll, Job.Ensures, Settles, pure]
  | cons b rest ih =>
      apply Job.Ensures.bind (delivers_stage i b)
      intro r settled
      cases r with
      | error err => trivial
      | ok r =>
          apply (ih _ _).mono
          intro r' others
          exact others.mono (fun _ others => List.forall_mem_cons.mpr ⟨settled, others⟩) fun _ h => h

/-- The reference arithmetic does not crash. -/
theorem delivers_made {d : Device} (reference : d.primitives = .reference) (op : Operation)
    (given : List Ciphertext) (keys : OperationKeys) (nonce : UInt64) :
    Job.Ensures v.Later Later (Outcome.Settles (fun _ => True) True)
      (match d.primitives.run op given keys nonce with
      | .crashed text => return .crashed text
      | .failed e => return .failed (.kernel d.id e.message)
      | .done words => return .ofExcept (← Job.atomic (·.keepOutput i words)) :
        Job Inventory (Outcome DeviceError DeviceHandle)) := by
  have run : d.primitives.run op given keys nonce = .ofExcept (Primitive.run op given keys nonce) := by
    rw [reference]
    rfl
  rw [run]
  cases Primitive.run op given keys nonce with
  | error err => trivial
  | ok ct =>
      apply Job.Ensures.bind (Ages.allocation (allocates_keepOutput · i ct)).ensures
      intro kept _
      cases kept with
      | error err => trivial
      | ok h => trivial

theorem delivers_compute (inside : i < v.devices.size)
    (reference : (v.device i).primitives = .reference) (op : Operation)
    (handles : List DeviceHandle) (keys : OperationKeys) (nonce : UInt64) :
    (compute i op handles keys nonce).Ensures v.Later Later (Outcome.Settles (fun _ => True) True) := by
  have looks : (Job.look fun s : Inventory => ((s.device i).inputsOf handles, s.device i)).Ensures
      v.Later Later fun r => r.2.primitives = .reference := by
    apply Job.Ensures.look
    intro s later
    exact ⟨.of_devices rfl, (later.device i inside).primitives.trans reference⟩
  apply Job.Ensures.bind looks
  intro r same
  obtain ⟨read, d⟩ := r
  cases read with
  | error err => trivial
  | ok given =>
      have made := delivers_made (v := v) (i := i) same op given keys nonce
      dsimp only
      split
      · exact .bind (.tell trivial) fun _ (_ : True) => made
      · exact made

/-- Where an output is: on the selected device, if it is to be kept there, and otherwise on the host. -/
structure Delivered (v : Inventory) (i : Nat) (keep : Bool) (out : Payload × DeviceId) : Prop where
  id : out.2 = (v.device i).id
  kept : keep = true → ∃ h, out.1 = .device ⟨i, h⟩
  brought : keep = false → ∃ words, out.1 = .host (.ciphertext words)

theorem delivers_settle (inside : i < v.devices.size) (h : DeviceHandle) (keep : Bool) :
    (settle i h keep).Ensures v.Later Later (Outcome.Settles (Delivered v i keep) True) := by
  have looks : (Job.look fun s : Inventory => (s.device i).id).Ensures v.Later Later
      fun id => id = (v.device i).id := by
    apply Job.Ensures.look
    intro s later
    exact ⟨.of_devices rfl, (later.device i inside).id⟩
  apply Job.Ensures.bind looks
  intro id same
  cases keep with
  | true => exact ⟨same, fun _ => ⟨h, rfl⟩, by simp⟩
  | false =>
      apply Job.Ensures.bind (Ages.download ⟨i, h⟩).ensures
      intro read _
      apply Job.Ensures.bind (Ages.free ⟨i, h⟩).ensures
      intro _ _
      cases read with
      | error err => trivial
      | ok words => exact ⟨same, by simp, fun _ => ⟨words, rfl⟩⟩

/-- On a selected device, an operation does not crash. If it has a result, all its inputs were ciphertexts,
and the result is on the device or the host as it was told. -/
theorem delivers_proceed (inside : i < v.devices.size)
    (reference : (v.device i).primitives = .reference) (op : Operation) (inputs : List Buffer)
    (keys : OperationKeys) (nonce : UInt64) (keep : Bool) :
    (proceed op inputs keys nonce keep (.ok i)).Ensures v.Later Later
      (Outcome.Settles (fun out => (∀ b ∈ inputs, b.Uploads) ∧ Delivered v i keep out) True) := by
  apply Job.Ensures.bind (delivers_stageAll i [] [] inputs)
  intro r uploads
  obtain ⟨staged, moved⟩ := r
  have cleared := (Ages.unstage i moved).ensures (v := v)
  cases staged with
  | error err => exact .bind cleared fun _ _ => trivial
  | ok handles =>
      apply Job.Ensures.bind (delivers_compute inside reference op handles keys nonce)
      intro computed settled
      cases computed with
      | failed err => exact .bind cleared fun _ _ => trivial
      | crashed text => exact settled.elim
      | done h =>
          apply Job.Ensures.bind cleared
          intro _ _
          apply (delivers_settle inside h keep).mono
          intro out settled
          cases out with
          | done out => exact ⟨uploads, settled⟩
          | failed err => trivial
          | crashed text => exact settled

/-! ## the words of inputs -/

/-- What is in an allocation is known of it. -/
theorem Holds.recalls {x : Deposit} (held : v.Holds x) (numbered : v.Numbered) : v.Recalls x where
  inside := held.inside
  label := held.label
  given := by
    obtain ⟨front, back, split, -⟩ := List.lookup_eq_some_iff.mp held.words
    apply numbered _ held.inside (x.place.handle.slot, x.words)
    rw [split]
    simp
  words words found := Option.some.inj (found.symm.trans held.words)

/-- What is in allocations before an operation is known from then on. -/
theorem Balanced.knows (balanced : v.Balanced) {known : List Deposit}
    (held : ∀ x ∈ known, v.Holds x) : v.Knows v known where
  later := .of_devices rfl
  numbered i inside := (balanced i inside).numbered
  recalls x mem := (held x mem).recalls fun i inside => (balanced i inside).numbered
  once x hx y hy same := by
    obtain ⟨place, words⟩ := x
    obtain ⟨place', words'⟩ := y
    obtain rfl : place = place' := same
    have there := (held _ hx).words.symm.trans (held _ hy).words
    exact congrArg _ (Option.some.inj there)

theorem exists_known {words : List Ciphertext} (carries : List.Forall₂ v.Carries inputs words) :
    ∃ known, (∀ x ∈ known, v.Holds x) ∧
      List.Forall₂ (fun b w => b.Reads known w) inputs words := by
  induction carries with
  | nil => exact ⟨[], by simp, .nil⟩
  | @cons b w inputs words first rest ih =>
      obtain ⟨known, held, reads⟩ := ih
      cases first with
      | host here => exact ⟨known, held, .cons (Buffer.reads_host here) reads⟩
      | device place there holds =>
          have more := List.subset_cons_self ⟨place, w⟩ known
          have first := Buffer.reads_device there (List.mem_cons_self (a := ⟨place, w⟩) (l := known))
          exact ⟨⟨place, w⟩ :: known, List.forall_mem_cons.mpr ⟨holds, held⟩,
            .cons first (reads.imp fun _ _ read => read.mono more)⟩

/-- Inputs that are ciphertexts or on devices have words. -/
theorem exists_carries (live : ∀ b ∈ inputs, v.Live b) (uploads : ∀ b ∈ inputs, b.Uploads) :
    ∃ words, List.Forall₂ v.Carries inputs words := by
  induction inputs with
  | nil => exact ⟨[], .nil⟩
  | cons b rest ih =>
      obtain ⟨here, live⟩ := List.forall_mem_cons.mp live
      obtain ⟨uploads, others⟩ := List.forall_mem_cons.mp uploads
      obtain ⟨words, carries⟩ := ih live others
      cases payload : b.payload with
      | host value =>
          obtain ⟨w, rfl⟩ := uploads value payload
          exact ⟨w :: words, .cons (.host payload) carries⟩
      | device place =>
          obtain ⟨w, held⟩ := here place payload
          exact ⟨w :: words, .cons (.device place payload held) carries⟩

/-! ## three contracts of one run -/

section Runs

variable (op : Operation) (keys : OperationKeys) (nonce : UInt64) (keep : Bool)

/-- An operation that is run at once leaves no deposit but its output. -/
theorem guards_execute (balanced : v.Balanced) (inputs : List Buffer) :
    ∃ own, v.Guards own (v.execute op inputs keys nonce keep).2 ∧
      Leaves keep own (v.execute op inputs keys nonce keep).1 := by
  apply Job.Tracks.run (I := fun own s => v.Guards own s) (guards_operate op inputs keys nonce keep)
  · intro own s guards
    exact ⟨[], by rwa [List.append_nil]⟩
  · intro own own' s s' guards passes
    have guards := passes [] (by rwa [List.append_nil])
    rwa [List.append_nil] at guards
  · exact balanced.guards

/-- An operation that is run at once gives what the primitives make of the words of its inputs. -/
theorem learns_execute (balanced : v.Balanced) {words : List Ciphertext}
    (carries : List.Forall₂ v.Carries inputs words) :
    ∃ own, v.Knows (v.execute op inputs keys nonce keep).2 own ∧
      (v.execute op inputs keys nonce keep).1.Gives fun out => ∃ i ct, out.2 = (v.device i).id ∧
        (∀ value p, (⟨value, p, out.1⟩ : Buffer).Reads own ct) ∧
        v.Makes i op words keys nonce ct := by
  obtain ⟨known, held, reads⟩ := exists_known carries
  apply Job.Tracks.run (I := fun own s => v.Knows s own) (learns_operate op keys nonce keep reads)
  · intro own s knows
    exact knows
  · intro own own' s s' knows learns
    obtain ⟨all, -, sub, knows⟩ := learns own (List.Subset.refl _) knows
    exact knows.mono sub
  · exact balanced.knows held

/-- An operation that is run at once delivers its output from the device that is selected. -/
theorem delivers_execute (reference : ∀ i < v.devices.size, (v.device i).primitives = .reference)
    (selected : v.select.1 = .ok i) (inputs : List Buffer) :
    v.Later (v.execute op inputs keys nonce keep).2 ∧
      (v.execute op inputs keys nonce keep).1.Settles
        (fun out => (∀ b ∈ inputs, b.Uploads) ∧ Delivered v i keep out) True := by
  have inside := lt_of_select selected
  have proceeds := delivers_proceed inside (reference i inside) op inputs keys nonce keep
  rw [execute_eq, selected]
  apply proceeds.run (I := v.Later)
  · intro s later
    exact later
  · intro s s' later changed
    exact later.trans changed
  · exact .of_devices v.devices_select

end Runs

variable {op : Operation} {keys : OperationKeys} {nonce : UInt64} {keep : Bool}

/-- Without a device to select, an operation fails. -/
theorem execute_of_error {err : DeviceError} (none_ : v.select.1 = .error err) :
    v.execute op inputs keys nonce keep = (.failed err, v.select.2) := by
  rw [execute_eq, none_]
  rfl

/-! ## what emulated devices come to -/

/-- Emulated devices stay so as long as they stay in balance. -/
theorem Emulated.later (emulated : v.Emulated) (balanced : v'.Balanced) (later : v.Later v') :
    v'.Emulated where
  balanced := balanced
  apart := later.ids ▸ emulated.apart
  reference i inside := by
    have there := later.size ▸ inside
    rw [(later.device i there).primitives, emulated.reference i there]

theorem emulated_emulated {count : Nat} (fits : count ≤ UInt32.size) (capacity : Nat)
    (policy : SelectionPolicy) : (emulated count capacity policy).Emulated where
  balanced i inside := by
    have there : i < count := by simpa [emulated] using inside
    have empty : ((emulated count capacity policy).device i) = { id := ⟨UInt32.ofNat i⟩, capacity } := by
      simp [emulated, device, there]
    rw [empty]
    exact Device.balanced_of_empty rfl rfl
  apart := by
    have ids : (emulated count capacity policy).ids =
        (List.range count).map fun i => (⟨UInt32.ofNat i⟩ : DeviceId) := by
      simp [Inventory.ids, emulated, Function.comp_def]
    rw [ids]
    apply List.nodup_range.map_on
    intro i hi j hj same
    have words := congrArg (fun id => id.index.toNat) same
    have fits' (n : Nat) (mem : n ∈ List.range count) : (UInt32.ofNat n).toNat = n := by
      apply UInt32.toNat_ofNat_of_lt'
      have := List.mem_range.mp mem
      omega
    dsimp only at words
    rwa [fits' i hi, fits' j hj] at words
  reference i inside := by
    have there : i < count := by simpa [emulated] using inside
    simp [emulated, device, there]

theorem Emulated.upload (emulated : v.Emulated) (inside : i < v.devices.size) (words : Ciphertext) :
    (v.upload i words).2.Emulated := by
  have allocates := allocates_upload v i words
  apply emulated.later _ allocates.later
  unfold Allocates at allocates
  cases result : (v.upload i words).1 with
  | error err =>
      rw [result] at allocates
      exact (emulated.balanced.guards.congr allocates).balanced
  | ok h =>
      rw [result] at allocates
      obtain ⟨d, made, devices⟩ := allocates
      exact ((emulated.balanced.guards.allocate inside made).congr devices).balanced

theorem Emulated.switch (emulated : v.Emulated) (i : Nat) (faulted : Bool) :
    (v.setDevice i { v.device i with faulted }).Emulated := by
  apply emulated.later (emulated.balanced.guards.switch i faulted).balanced
  exact .setDevice ⟨rfl, rfl, le_rfl, fun _ _ _ found => found, fun numbered => numbered⟩

theorem Emulated.free (emulated : v.Emulated) (place : Resident) : (v.free place).Emulated := by
  apply emulated.later _ (.free v place)
  intro i inside
  rw [Inventory.free, size_setDevice] at inside
  by_cases there : place.owner < v.devices.size
  · rw [Inventory.free, device_setDevice there]
    split
    · exact Device.balanced_free (emulated.balanced _ there) _
    · exact emulated.balanced i inside
  · have same : (v.free place).devices = v.devices :=
      Array.setIfInBounds_eq_of_size_le (Nat.le_of_not_lt there)
    rw [Inventory.device, same]
    exact emulated.balanced i inside

theorem Emulated.execute (emulated : v.Emulated) (op : Operation) (inputs : List Buffer)
    (keys : OperationKeys) (nonce : UInt64) (keep : Bool) :
    (v.execute op inputs keys nonce keep).2.Emulated := by
  obtain ⟨own, guards, -⟩ := guards_execute op keys nonce keep emulated.balanced inputs
  apply emulated.later guards.balanced
  cases selected : v.select.1 with
  | error err =>
      rw [execute_of_error selected]
      exact .of_devices v.devices_select
  | ok i => exact (delivers_execute op keys nonce keep emulated.reference selected inputs).1

/-! ## the operation -/

/-- What is left of one deposit. -/
theorem Guards.gained (balanced : v.Balanced) {h : DeviceHandle} {words : Ciphertext}
    (guards : v.Guards [⟨⟨i, h⟩, words⟩] v') (label : h.device = (v'.device i).id) :
    v.Gained i h words v' := by
  have inside : i < v.devices.size := guards.inside _ List.mem_cons_self
  have keeps := guards.device i inside
  have alone : allocations [(⟨⟨i, h⟩, words⟩ : Deposit)] i = [(h.slot, words)] :=
    allocations_cons_self ⟨⟨i, h⟩, words⟩ []
  rw [alone] at keeps
  have here : (v'.device i).buffers.Perm ((h.slot, words) :: (v.device i).buffers) := keeps.buffers
  have distinct := keeps.balanced.distinct
  constructor
  case size => exact guards.size
  case here => exact here
  case holds =>
    constructor
    case inside => exact guards.size ▸ inside
    case label => exact label
    case words => exact (KeyCache.lookup_eq_some_iff_mem distinct).mpr (here.mem_iff.mpr List.mem_cons_self)
  case fresh =>
    have apart := ((here.map (·.1)).nodup_iff.mp distinct)
    rw [List.map_cons, List.nodup_cons] at apart
    apply List.lookup_eq_none_iff.mpr
    intro x mem
    apply bne_iff_ne.mpr
    intro same
    exact apart.1 (List.mem_map.mpr ⟨x, mem, same.symm⟩)
  case elsewhere =>
    intro j lt other
    have keeps := guards.device j lt
    rw [allocations_cons_of_ne other.symm] at keeps
    exact keeps.restored (balanced j lt)

/-- An operation that fails leaves all allocations as they were, in whatever section it fails. -/
theorem Balanced.restored_of_failed (balanced : v.Balanced) {err : DeviceError}
    (failed : (v.execute op inputs keys nonce keep).1 = .failed err) :
    v.Restored (v.execute op inputs keys nonce keep).2 := by
  obtain ⟨own, guards, leaves⟩ := guards_execute op keys nonce keep balanced inputs
  rw [failed] at leaves
  obtain rfl : own = [] := leaves
  exact guards.restored balanced

/-- With the reference arithmetic, an operation does not crash. -/
theorem Emulated.ne_crashed (emulated : v.Emulated) (text : Option String) :
    (v.execute op inputs keys nonce keep).1 ≠ .crashed text := by
  intro crashed
  cases selected : v.select.1 with
  | error err =>
      rw [execute_of_error selected] at crashed
      contradiction
  | ok i =>
      obtain ⟨-, delivers⟩ :=
        delivers_execute op keys nonce keep emulated.reference selected inputs
      rw [crashed] at delivers
      exact delivers

/-- What a result leaves: the words of the output on the host and all allocations as they were, or one
allocation more with these words on the device that was selected. -/
def Leads (v : Inventory) (i : Nat) (ct : Ciphertext) (payload : Payload) (v' : Inventory) : Bool → Prop
  | false => payload = .host (.ciphertext ct) ∧ v.Restored v'
  | true => ∃ h, payload = .device ⟨i, h⟩ ∧ v.Gained i h ct v'

/-- An output that is brought back has left no deposit, and one that is kept is the only one. -/
theorem Delivered.leads (balanced : v.Balanced) {payload : Payload} {id : DeviceId} {value : Value}
    {own known : List Deposit} {ct : Ciphertext} (delivered : Delivered v i keep (payload, id))
    (guards : v.Guards own v') (stands : payload.Stands value own) (knows : v.Knows v' known)
    (reads : (⟨default, default, payload⟩ : Buffer).Reads known ct) :
    v.Leads i ct payload v' keep := by
  have reads := reads.cases
  cases keep with
  | false =>
      obtain ⟨words, brought⟩ := delivered.brought rfl
      dsimp only at brought
      subst brought
      cases stands with
      | host value =>
          cases reads with
          | inl host => exact ⟨host, guards.restored balanced⟩
          | inr device =>
              obtain ⟨place, there, -⟩ := device
              contradiction
  | true =>
      obtain ⟨h, kept⟩ := delivered.kept rfl
      dsimp only at kept
      subst kept
      cases stands with
      | device place words =>
          cases reads with
          | inl host => contradiction
          | inr device =>
              obtain ⟨place, there, mem⟩ := device
              obtain rfl := Payload.device.inj there
              have recalls := knows.recalls _ mem
              have gained := guards.gained balanced recalls.label
              obtain rfl := recalls.words words gained.holds.words
              exact ⟨h, rfl, gained⟩

/-- A result is what the reference arithmetic makes of the words of the inputs, and it is where it was told
to be. -/
theorem Emulated.leads (emulated : v.Emulated) (live : ∀ b ∈ inputs, v.Live b)
    {payload : Payload} {id : DeviceId}
    (done : (v.execute op inputs keys nonce keep).1 = .done (payload, id)) :
    ∃ i words ct, v.select.1 = .ok i ∧ id = (v.device i).id ∧ List.Forall₂ v.Carries inputs words ∧
      Primitive.run op words keys nonce = .ok ct ∧
      v.Leads i ct payload (v.execute op inputs keys nonce keep).2 keep := by
  cases selected : v.select.1 with
  | error err =>
      rw [execute_of_error selected] at done
      contradiction
  | ok i =>
      obtain ⟨-, delivers⟩ :=
        delivers_execute op keys nonce keep emulated.reference selected inputs
      rw [done] at delivers
      obtain ⟨uploads, delivered⟩ := delivers
      obtain ⟨own, guards, leaves⟩ := guards_execute op keys nonce keep emulated.balanced inputs
      rw [done] at leaves
      obtain ⟨⟨value, stands⟩, -⟩ := leaves
      obtain ⟨words, carries⟩ := exists_carries live uploads
      obtain ⟨known, knows, gives⟩ := learns_execute op keys nonce keep emulated.balanced carries
      obtain ⟨j, ct, -, reads, inside, given, same, ran⟩ := gives _ done
      obtain rfl := same emulated.apart
      rw [emulated.reference j inside] at ran
      have leads := delivered.leads emulated.balanced guards stands knows (reads default default)
      exact ⟨i, given, ct, rfl, delivered.id, carries, Outcome.ofExcept_eq_done_iff.mp ran, leads⟩

/-- An operation on emulated devices that runs at once.  If it has a result, this is what the reference
arithmetic makes of the words of its inputs, wherever they were; the devices hold what they held before,
and the output where it is to be kept.  If it has none, they hold exactly what they held before. -/
theorem execute_transparent (emulated : v.Emulated) (live : ∀ b ∈ inputs, v.Live b) (op : Operation)
    (keys : OperationKeys) (nonce : UInt64) (keep : Bool) :
    (∀ payload id, (v.execute op inputs keys nonce keep).1 = .done (payload, id) →
      ∃ i words ct, v.select.1 = .ok i ∧ id = (v.device i).id ∧
        List.Forall₂ v.Carries inputs words ∧ Primitive.run op words keys nonce = .ok ct ∧
        v.Leads i ct payload (v.execute op inputs keys nonce keep).2 keep) ∧
    (∀ err, (v.execute op inputs keys nonce keep).1 = .failed err →
      v.Restored (v.execute op inputs keys nonce keep).2) ∧
    ∀ text, (v.execute op inputs keys nonce keep).1 ≠ .crashed text := by
  constructor
  · intro payload id done
    exact emulated.leads live done
  · constructor
    · intro err failed
      exact emulated.balanced.restored_of_failed failed
    · intro text
      exact emulated.ne_crashed text

end Inventory

/-! ## a run -/

namespace Inventory.Moved

/-- Two devices, and a ciphertext on the second. -/
def devices : Inventory := ((emulated 2 1000 .roundRobin).upload 1 [1, 2, 3, 4, 5]).2

/-- The ciphertext on the second device, and one on the host. -/
def operands : List Buffer :=
  [⟨default, default, .device ⟨1, ⟨⟨1⟩, 0, 5⟩⟩⟩, ⟨default, default, .host (.ciphertext [9, 8, 7, 6, 5])⟩]

/-- Keys of a partition with ciphertexts of five words. -/
def keys : OperationKeys :=
  { output := { (default : KeySet) with
      partition := { name := "P", lweDim := 1, glweDim := 1, polySize := 4 } } }

theorem devices_eq : devices =
    { devices := #[{ id := ⟨0⟩, capacity := 1000 },
        { id := ⟨1⟩, capacity := 1000, buffers := [(0, [1, 2, 3, 4, 5])], nextSlot := 1, usedBytes := 40 }]
      policy := .roundRobin
      counters := { uploads := 1, bytesToDevice := 40 } } := by
  have range : Array.range 2 = #[0, 1] := by decide
  have empty : emulated 2 1000 .roundRobin = {
      devices := #[{ id := ⟨0⟩, capacity := 1000 }, { id := ⟨1⟩, capacity := 1000 }]
      policy := .roundRobin } := by
    simp [emulated, range]
  rw [devices, empty]
  rfl

/-- The first device is selected, so that both inputs are moved there and freed when the sum is made. -/
theorem execute_transparent_moved :
    devices.Emulated ∧ (∀ b ∈ operands, devices.Live b) ∧
      (devices.execute .add operands keys 7 true).1 = .done (.device ⟨0, ⟨⟨0⟩, 2, 5⟩⟩, ⟨0⟩) ∧
      ∃ words ct, List.Forall₂ devices.Carries operands words ∧
        Primitive.run .add words keys 7 = .ok ct ∧
        devices.Gained 0 ⟨⟨0⟩, 2, 5⟩ ct (devices.execute .add operands keys 7 true).2 := by
  have emulated : devices.Emulated := by
    apply (emulated_emulated (by decide) 1000 .roundRobin).upload
    simp [Inventory.emulated]
  have live : ∀ b ∈ operands, devices.Live b := by
    have held : devices.Holds ⟨⟨1, ⟨⟨1⟩, 0, 5⟩⟩, [1, 2, 3, 4, 5]⟩ := by
      rw [devices_eq]
      exact ⟨by decide, rfl, rfl⟩
    simp only [operands, List.forall_mem_cons, Live, Payload.device.injEq, reduceCtorEq]
    refine ⟨fun place same => ⟨_, same ▸ held⟩, by simp⟩
  have done : (devices.execute .add operands keys 7 true).1 =
      .done (.device ⟨0, ⟨⟨0⟩, 2, 5⟩⟩, ⟨0⟩) := by
    rw [devices_eq]
    rfl
  obtain ⟨i, words, ct, selected, -, carries, ran, h, same, gained⟩ :=
    (execute_transparent emulated live .add keys 7 true).1 _ _ done
  obtain ⟨rfl, rfl⟩ := Resident.mk.inj (Payload.device.inj same)
  exact ⟨emulated, live, done, words, ct, carries, ran, gained⟩

end Inventory.Moved

end HomCircuit
