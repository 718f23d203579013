import HomCircuit.Proofs.Backend.Memory

/-!
# HomCircuit.Proofs.Backend.Custody

What an operation on devices leaves behind on them, whatever their sizes, primitives and faults are.

```
allocations of a device  =  those that it had at first  +  the deposits on it
bytes in use             =  eight a word of all allocations  ≤  capacity
```

A deposit is made together with its allocation and freed with it. Freeing never fails: it looks neither at
the fault switch nor at the number of the device, so that devices may even share their numbers.

* `Device.Balanced` — the books of a device agree with its allocations;
* `Inventory.Guards` — the allocations of all devices are those of some earlier state and some deposits;
* `Inventory.guards_operate` — an operation leaves no deposit but its output, and none at all if it fails.
-/

namespace HomCircuit

/-! ## one device -/

namespace Device

variable {d₀ d d' : Device} {words : Ciphertext} {h : DeviceHandle}
  {extra extra' : List (Nat × Ciphertext)}

/-- Number of words in all allocations. -/
def totalWords (d : Device) : Nat := (d.buffers.map fun b => b.2.length).sum

/-- The books of a device agree with its allocations: each has a number of its own, and the bytes in use
are those of their words and fit into its memory. -/
structure Balanced (d : Device) : Prop where
  distinct : (d.buffers.map (·.1)).Nodup
  numbered : d.Numbered
  used : d.usedBytes = wordBytes * d.totalWords
  fits : d.usedBytes ≤ d.capacity

/-- A device without allocations is in balance. -/
theorem balanced_of_empty (empty : d.buffers = []) (unused : d.usedBytes = 0) : d.Balanced where
  distinct := by simp [empty]
  numbered := by simp [Numbered, empty]
  used := by simp [totalWords, empty, unused]
  fits := by simp [unused]

/-- The switch has no part in the books. -/
theorem Balanced.switch (b : d.Balanced) (faulted : Bool) : ({ d with faulted } : Device).Balanced :=
  ⟨b.distinct, b.numbered, b.used, b.fits⟩

theorem Balanced.allocate (b : d.Balanced) (made : d.allocate words = .ok (h, d')) :
    d'.Balanced ∧ d'.buffers = (h.slot, words) :: d.buffers ∧ d'.id = d.id ∧
      d'.capacity = d.capacity := by
  unfold Device.allocate at made
  dsimp only at made
  split at made
  · contradiction
  · next room =>
      obtain ⟨rfl, rfl⟩ := Prod.mk.inj (Except.ok.inj made)
      refine ⟨⟨List.nodup_cons.mpr ⟨fun taken => ?_, b.distinct⟩, ?_, ?_, ?_⟩, rfl, rfl, rfl⟩
      · obtain ⟨old, mem, slot⟩ := List.mem_map.mp taken
        exact (b.numbered old mem).ne slot
      · refine List.forall_mem_cons.mpr ⟨Nat.lt_succ_self _, fun old mem => ?_⟩
        exact Nat.lt_succ_of_lt (b.numbered old mem)
      · have used := b.used
        simp only [totalWords, List.map_cons, List.sum_cons, wordBytes] at used ⊢
        omega
      · have fits := b.fits
        dsimp only
        omega

/-- An allocation that is freed is gone with its bytes, and no other. -/
theorem Balanced.free (b : d.Balanced) (mem : (h.slot, words) ∈ d.buffers) :
    (d.free h).Balanced ∧ d.buffers.Perm ((h.slot, words) :: (d.free h).buffers) ∧
      (d.free h).id = d.id ∧ (d.free h).capacity = d.capacity := by
  obtain ⟨front, back, split⟩ := List.append_of_mem mem
  have moved : d.buffers.Perm ((h.slot, words) :: (front ++ back)) := by
    rw [split]
    exact List.perm_middle
  obtain ⟨apart, distinct⟩ := List.nodup_cons.mp ((moved.map (·.1)).nodup_iff.mp b.distinct)
  have others (x : Nat × Ciphertext) (there : x ∈ front ++ back) : x.1 ≠ h.slot :=
    fun same => apart (same ▸ List.mem_map.mpr ⟨x, there, rfl⟩)
  have kept : d.buffers.filter (·.1 ≠ h.slot) = front ++ back := by
    rw [split, List.filter_append, List.filter_cons_of_neg (by simp), ← List.filter_append]
    exact List.filter_eq_self.mpr fun x there => by simpa using others x there
  have found : d.buffers.lookup h.slot = some words := by
    have first : front.lookup h.slot = none := List.lookup_eq_none_iff.mpr fun x there =>
      bne_iff_ne.mpr (others x (List.mem_append_left _ there)).symm
    rw [split, List.lookup_append, first]
    simp
  have total : d.totalWords = words.length + ((front ++ back).map fun x => x.2.length).sum := by
    rw [totalWords, (moved.map _).sum_eq, List.map_cons, List.sum_cons]
  have freed : d.free h = { d with
      buffers := front ++ back
      usedBytes := d.usedBytes - words.length * wordBytes } := by
    unfold Device.free
    rw [found, ← kept]
  rw [freed]
  refine ⟨⟨distinct, fun x there => ?_, ?_, ?_⟩, moved, rfl, rfl⟩
  · exact b.numbered x (moved.mem_iff.mpr (List.mem_cons_of_mem _ there))
  · have used := b.used
    simp only [totalWords, wordBytes] at used total ⊢
    omega
  · exact (Nat.sub_le _ _).trans b.fits

/-- A device some time later: the same device in balance, with some allocations more. -/
structure Keeps (d₀ d : Device) (extra : List (Nat × Ciphertext)) : Prop where
  id : d.id = d₀.id
  capacity : d.capacity = d₀.capacity
  balanced : d.Balanced
  buffers : d.buffers.Perm (extra ++ d₀.buffers)

theorem Balanced.keeps (b : d.Balanced) : d.Keeps d [] := ⟨rfl, rfl, b, .refl _⟩

theorem Keeps.perm (k : d₀.Keeps d extra) (same : extra.Perm extra') : d₀.Keeps d extra' :=
  { k with buffers := k.buffers.trans (same.append_right _) }

theorem Keeps.switch (k : d₀.Keeps d extra) (faulted : Bool) : d₀.Keeps { d with faulted } extra :=
  ⟨k.id, k.capacity, k.balanced.switch faulted, k.buffers⟩

theorem Keeps.allocate (k : d₀.Keeps d extra) (made : d.allocate words = .ok (h, d')) :
    d₀.Keeps d' ((h.slot, words) :: extra) := by
  obtain ⟨balanced, buffers, id, capacity⟩ := k.balanced.allocate made
  exact ⟨id.trans k.id, capacity.trans k.capacity, balanced, buffers ▸ k.buffers.cons _⟩

theorem Keeps.free (k : d₀.Keeps d ((h.slot, words) :: extra)) : d₀.Keeps (d.free h) extra := by
  have mem : (h.slot, words) ∈ d.buffers := k.buffers.mem_iff.mpr List.mem_cons_self
  obtain ⟨balanced, moved, id, capacity⟩ := k.balanced.free mem
  exact ⟨id.trans k.id, capacity.trans k.capacity, balanced, (moved.symm.trans k.buffers).cons_inv⟩

/-- The device holds exactly the allocations that it held before, and they fill as much of it. -/
structure Restored (d₀ d : Device) : Prop where
  id : d.id = d₀.id
  capacity : d.capacity = d₀.capacity
  buffers : d.buffers.Perm d₀.buffers
  usedBytes : d.usedBytes = d₀.usedBytes

theorem Keeps.restored (b : d₀.Balanced) (k : d₀.Keeps d []) : d₀.Restored d where
  id := k.id
  capacity := k.capacity
  buffers := k.buffers
  usedBytes := by
    rw [k.balanced.used, b.used, totalWords, totalWords, (k.buffers.map _).sum_eq, List.nil_append]

end Device

/-! ## all devices -/

namespace Inventory

variable {v₀ v v' : Inventory} {ds ds' : List Deposit} {i : Nat}

/-- The allocations of the deposits on one device. -/
def allocations (ds : List Deposit) (i : Nat) : List (Nat × Ciphertext) :=
  (ds.filter fun x => x.place.owner == i).map fun x => (x.place.handle.slot, x.words)

theorem allocations_cons_self (x : Deposit) (ds : List Deposit) :
    allocations (x :: ds) x.place.owner =
      (x.place.handle.slot, x.words) :: allocations ds x.place.owner := by
  simp [allocations]

theorem allocations_cons_of_ne {x : Deposit} (apart : x.place.owner ≠ i) (ds : List Deposit) :
    allocations (x :: ds) i = allocations ds i := by
  simp [allocations, apart]

/-- All devices are in balance. -/
def Balanced (v : Inventory) : Prop := ∀ i < v.devices.size, (v.device i).Balanced

/-- The devices are those of some earlier state, in balance, and have the allocations that they had
then, and those of some deposits. -/
structure Guards (v₀ : Inventory) (ds : List Deposit) (v : Inventory) : Prop where
  size : v.devices.size = v₀.devices.size
  inside : ∀ x ∈ ds, x.place.owner < v₀.devices.size
  device : ∀ i < v₀.devices.size, (v₀.device i).Keeps (v.device i) (allocations ds i)

theorem Balanced.guards (b : v.Balanced) : v.Guards [] v :=
  ⟨rfl, nofun, fun i inside => (b i inside).keeps⟩

/-- Each device holds exactly the allocations that it held before. -/
structure Restored (v₀ v : Inventory) : Prop where
  size : v.devices.size = v₀.devices.size
  device : ∀ i < v₀.devices.size, (v₀.device i).Restored (v.device i)

theorem Guards.restored (b : v₀.Balanced) (g : v₀.Guards [] v) : v₀.Restored v :=
  ⟨g.size, fun i inside => (g.device i inside).restored (b i inside)⟩

namespace Guards

theorem balanced (g : v₀.Guards ds v) : v.Balanced := fun i inside =>
  (g.device i (g.size ▸ inside)).balanced

/-- It does not matter in which order words are deposited. -/
theorem perm (g : v₀.Guards ds v) (same : ds.Perm ds') : v₀.Guards ds' v where
  size := g.size
  inside x mem := g.inside x (same.mem_iff.mpr mem)
  device i inside := (g.device i inside).perm ((same.filter _).map _)

/-- Only the devices matter. -/
theorem congr (g : v₀.Guards ds v) (same : v'.devices = v.devices) : v₀.Guards ds v' where
  size := same ▸ g.size
  inside := g.inside
  device i inside := by
    have unchanged : v'.device i = v.device i := by simp only [Inventory.device, same]
    exact unchanged ▸ g.device i inside

/-- One device changes, with what is deposited on it. -/
theorem setDevice (g : v₀.Guards ds v) {d : Device} (here : i < v₀.devices.size)
    (keeps : (v₀.device i).Keeps d (allocations ds' i))
    (inside : ∀ x ∈ ds', x.place.owner < v₀.devices.size)
    (elsewhere : ∀ j, j ≠ i → allocations ds' j = allocations ds j) :
    v₀.Guards ds' (v.setDevice i d) where
  size := (size_setDevice v i d).trans g.size
  inside := inside
  device j lt := by
    rw [device_setDevice (g.size ▸ here)]
    split
    · next same => exact same ▸ keeps
    · next apart => exact elsewhere j apart ▸ g.device j lt

/-- A new allocation is one deposit more. -/
theorem allocate (g : v₀.Guards ds v) (here : i < v₀.devices.size) {words : Ciphertext}
    {h : DeviceHandle} {d : Device} (made : (v.device i).allocate words = .ok (h, d)) :
    v₀.Guards (⟨⟨i, h⟩, words⟩ :: ds) (v.setDevice i d) := by
  refine g.setDevice here ?_ (List.forall_mem_cons.mpr ⟨here, g.inside⟩) fun j apart => ?_
  · exact (allocations_cons_self ⟨⟨i, h⟩, words⟩ ds).symm ▸ (g.device i here).allocate made
  · exact allocations_cons_of_ne apart.symm ds

/-- A deposit that is freed is gone, and no other. -/
theorem free {x : Deposit} (g : v₀.Guards (x :: ds) v) : v₀.Guards ds (v.free x.place) := by
  obtain ⟨here, inside⟩ := List.forall_mem_cons.mp g.inside
  have keeps := g.device _ here
  rw [allocations_cons_self] at keeps
  exact g.setDevice here keeps.free inside fun j apart => (allocations_cons_of_ne apart.symm ds).symm

/-- A device may be put out of order, and back in. -/
theorem switch (g : v₀.Guards ds v) (i : Nat) (faulted : Bool) :
    v₀.Guards ds (v.setDevice i { v.device i with faulted }) := by
  by_cases here : i < v₀.devices.size
  · exact g.setDevice here ((g.device i here).switch faulted) g.inside fun _ _ => rfl
  · have beyond : v.devices.size ≤ i := g.size.trans_le (Nat.le_of_not_lt here)
    exact g.congr (Array.setIfInBounds_eq_of_size_le beyond)

end Guards

/-! ## one operation -/

/-- What a job may rely on between its sections: that its own deposits are on the devices. -/
def Guarded (v₀ : Inventory) (own : List Deposit) (v : Inventory) : Prop :=
  ∃ rest, v₀.Guards (own ++ rest) v

/-- A section touches no deposits but those of its job. -/
def Passes (v₀ : Inventory) (own own' : List Deposit) (v v' : Inventory) : Prop :=
  ∀ rest, v₀.Guards (own ++ rest) v → v₀.Guards (own' ++ rest) v'

theorem Passes.same {own : List Deposit} (same : v'.devices = v.devices) :
    Passes v₀ own own v v' := fun _ g => g.congr same

section Sections

variable {own : List Deposit}

theorem guards_select :
    Job.Tracks (Guarded v₀) (Passes v₀)
      (fun own' selected => own' = own ∧ ∀ i, selected = .ok i → i < v₀.devices.size) own
      (Job.atomic select) := by
  refine .atomic fun v guarded => ⟨own, .same v.devices_select, rfl, fun i selected => ?_⟩
  obtain ⟨rest, g⟩ := guarded
  exact g.size ▸ lt_of_select selected

/-- A section that makes an allocation, or is refused. -/
theorem guards_allocation {act : Inventory → Except DeviceError DeviceHandle × Inventory}
    {words : Ciphertext} (inside : i < v₀.devices.size)
    (allocates : ∀ v, Allocates i words v (act v)) :
    Job.Tracks (Guarded v₀) (Passes v₀)
      (fun own' => Settles (fun h => own' = own ++ [⟨⟨i, h⟩, words⟩]) fun _ => own' = own) own
      (Job.atomic act) := by
  refine .atomic fun v _ => ?_
  have allocates := allocates v
  unfold Allocates at allocates
  cases result : (act v).1 with
  | error err =>
      rw [result] at allocates
      exact ⟨own, .same allocates, rfl⟩
  | ok h =>
      rw [result] at allocates
      obtain ⟨d, made, devices⟩ := allocates
      refine ⟨own ++ [Deposit.mk ⟨i, h⟩ words], fun rest g => ?_, rfl⟩
      refine ((g.allocate inside made).congr devices).perm ?_
      rw [List.append_assoc]
      exact List.perm_middle.symm

theorem guards_download (place : Resident) :
    Job.Tracks (Guarded v₀) (Passes v₀) (fun own' _ => own' = own) own
      (Job.atomic (·.download place)) :=
  .atomic fun v _ => ⟨own, .same (v.devices_download place), rfl⟩

/-- What was moved is freed, and nothing else. -/
theorem guards_unstage {moved : List DeviceHandle} {ms outs : List Deposit}
    (places : (ms.map Deposit.place).Perm (moved.map (⟨i, ·⟩))) :
    Job.Tracks (Guarded v₀) (Passes v₀) (fun own' _ => own' = outs) (ms ++ outs)
      (unstage i moved) := by
  refine tracks_unstage_of (fun x front back v rest g => Guards.free (g.perm ?_)) places
  simp only [List.append_assoc, List.cons_append]
  exact List.perm_middle

/-! ### inputs -/

/-- What a job has in hand beyond some deposits is an allocation that was moved in, if any was. -/
def MovedIn (own : List Deposit) (i : Nat) (own' : List Deposit) (r : DeviceHandle × Bool) : Prop :=
  ∃ more, own' = own ++ more ∧ more.map Deposit.place = if r.2 then [⟨i, r.1⟩] else []

theorem guards_moveIn (inside : i < v₀.devices.size) (words : Ciphertext) :
    Job.Tracks (Guarded v₀) (Passes v₀)
      (fun own' => Settles (MovedIn own i own') fun _ => own' = own) own
      (do
        let h ← Job.atomic (·.upload i words)
        return h.map (·, true) : Job Inventory (Except DeviceError (DeviceHandle × Bool))) := by
  refine .bind (guards_allocation inside (allocates_upload · i words)) fun own' r settled => ?_
  cases r with
  | error err => exact settled
  | ok h => exact ⟨_, settled, rfl⟩

/-- An input is brought to a device, or it is not. -/
theorem guards_stage (inside : i < v₀.devices.size) (b : Buffer) :
    Job.Tracks (Guarded v₀) (Passes v₀)
      (fun own' => Settles (MovedIn own i own') fun _ => own' = own) own (stage i b) := by
  unfold stage
  cases b.payload with
  | host v =>
      cases v with
      | ciphertext words => exact guards_moveIn inside words
      | cleartext number => exact .look fun v _ => ⟨.same rfl, rfl⟩
      | simulated s => exact .look fun v _ => ⟨.same rfl, rfl⟩
  | device place =>
      refine .bind (P := fun own' _ => own' = own) (.look fun v _ => ⟨.same rfl, rfl⟩) ?_
      rintro own' here rfl
      by_cases there : here = true
      · rw [if_pos there]
        exact ⟨[], (List.append_nil own').symm, rfl⟩
      · rw [if_neg there]
        refine .bind (guards_download place) ?_
        rintro own' r rfl
        cases r with
        | error err => exact rfl
        | ok words => exact guards_moveIn inside words

/-- All inputs are brought to a device, up to one that is not; what was moved is in hand. -/
theorem guards_stageAll (inside : i < v₀.devices.size) {handles moved : List DeviceHandle}
    (bs : List Buffer) (places : own.map Deposit.place = moved.reverse.map (⟨i, ·⟩)) :
    Job.Tracks (Guarded v₀) (Passes v₀)
      (fun own' r => own'.map Deposit.place = r.2.reverse.map (⟨i, ·⟩)) own
      (stageAll i handles moved bs) := by
  induction bs generalizing own handles moved with
  | nil => exact places
  | cons b rest ih =>
      refine .bind (guards_stage inside b) fun own' r settled => ?_
      cases r with
      | error err =>
          obtain rfl : own' = own := settled
          exact places
      | ok r =>
          obtain ⟨h, fresh⟩ := r
          obtain ⟨more, rfl, place⟩ := settled
          refine ih ?_
          rw [List.map_append, places, place]
          cases fresh <;> simp

/-! ### the operation -/

/-- What primitives make becomes a deposit, and a failure leaves none. -/
theorem guards_made (inside : i < v₀.devices.size) (d : Device) (op : Operation)
    (given : List Ciphertext) (keys : OperationKeys) (nonce : UInt64) :
    Job.Tracks (Guarded v₀) (Passes v₀)
      (fun own' r => (∃ h ct, r = .done h ∧ own' = own ++ [⟨⟨i, h⟩, ct⟩]) ∨
        (∀ h, r ≠ .done h) ∧ own' = own) own
      (match d.primitives.run op given keys nonce with
      | .crashed text => return .crashed text
      | .failed e => return .failed (.kernel d.id e.message)
      | .done words => return .ofExcept (← Job.atomic (·.keepOutput i words)) :
        Job Inventory (Outcome DeviceError DeviceHandle)) := by
  cases d.primitives.run op given keys nonce with
  | crashed text => exact .inr ⟨by simp, rfl⟩
  | failed err => exact .inr ⟨by simp, rfl⟩
  | done ct =>
      refine .bind (guards_allocation inside (allocates_keepOutput · i ct)) fun own r settled => ?_
      cases r with
      | error err => exact .inr ⟨by simp [Outcome.ofExcept], settled⟩
      | ok h => exact .inl ⟨h, ct, rfl, settled⟩

/-- An operation on allocations of a device, which makes one more or none. -/
theorem guards_compute (inside : i < v₀.devices.size) (op : Operation) (handles : List DeviceHandle)
    (keys : OperationKeys) (nonce : UInt64) :
    Job.Tracks (Guarded v₀) (Passes v₀)
      (fun own' r => (∃ h ct, r = .done h ∧ own' = own ++ [⟨⟨i, h⟩, ct⟩]) ∨
        (∀ h, r ≠ .done h) ∧ own' = own) own
      (compute i op handles keys nonce) := by
  refine .bind (P := fun own' _ => own' = own) (.look fun v _ => ⟨.same rfl, rfl⟩) ?_
  rintro own' ⟨inputs, d⟩ rfl
  cases inputs with
  | error err => exact .inr ⟨by simp, rfl⟩
  | ok given =>
      dsimp only
      split
      · exact .bind (P := fun own _ => own = own') (.tell rfl) fun own _ same =>
          same ▸ guards_made inside d op given keys nonce
      · exact guards_made inside d op given keys nonce

/-- What an operation leaves in hand: the deposit of its output if that is on a device, where it was to be
kept, and otherwise nothing. -/
def Leaves (keep : Bool) (own : List Deposit) (r : Outcome DeviceError (Payload × DeviceId)) : Prop :=
  match r with
  | .done out => (∃ value, out.1.Stands value own) ∧ ∀ place, out.1 = .device place → keep = true
  | _ => own = []

/-- An output stays where it is, or is freed, whether it could be brought back or not. -/
theorem guards_settle {h : DeviceHandle} {ct : Ciphertext} (keep : Bool) :
    Job.Tracks (Guarded v₀) (Passes v₀) (Leaves keep) [⟨⟨i, h⟩, ct⟩] (settle i h keep) := by
  refine .bind (P := fun own' _ => own' = [Deposit.mk ⟨i, h⟩ ct]) (.look fun v _ => ⟨.same rfl, rfl⟩) ?_
  rintro own' id rfl
  by_cases kept : keep = true
  · rw [if_pos kept]
    exact ⟨⟨_, .device ⟨i, h⟩ ct⟩, fun _ _ => kept⟩
  · rw [if_neg kept]
    refine .bind (guards_download _) ?_
    rintro own' words rfl
    refine .bind (P := fun own' _ => own' = []) (.change fun v _ => ⟨[], fun _ g => g.free, rfl⟩) ?_
    rintro own' - rfl
    cases words with
    | error err => exact rfl
    | ok words => exact ⟨⟨_, .host _⟩, nofun⟩

/-- An operation leaves no deposit but its output, and none at all if it fails, at whatever section. -/
theorem guards_operate (op : Operation) (inputs : List Buffer) (keys : OperationKeys)
    (nonce : UInt64) (keep : Bool) :
    Job.Tracks (Guarded v₀) (Passes v₀) (Leaves keep) [] (operate op inputs keys nonce keep) := by
  refine .bind guards_select ?_
  rintro own' selected ⟨rfl, inside⟩
  cases selected with
  | error err => exact rfl
  | ok i =>
      have inside := inside i rfl
      refine .bind (guards_stageAll inside inputs rfl) ?_
      rintro own ⟨staged, moved⟩ places
      have places' : (own.map Deposit.place).Perm (moved.map (⟨i, ·⟩)) := by
        rw [places]
        exact (List.reverse_perm moved).map _
      -- what was moved in is freed, and with it everything unless there is an output
      have cleared : Job.Tracks (Guarded v₀) (Passes v₀) (fun own' _ => own' = []) own
          (unstage i moved) := by
        rw [← own.append_nil]
        exact guards_unstage places'
      cases staged with
      | error err => exact .bind cleared fun _ _ none => none
      | ok hs =>
          refine .bind (guards_compute inside op hs keys nonce) ?_
          rintro own' computed (⟨h, ct, rfl, rfl⟩ | ⟨failed, rfl⟩)
          · refine .bind (guards_unstage places') ?_
            rintro own' - rfl
            exact guards_settle keep
          · cases computed with
            | done h => exact absurd rfl (failed h)
            | failed err => exact .bind cleared fun _ _ none => none
            | crashed text => exact .bind cleared fun _ _ none => none

end Sections

end Inventory

end HomCircuit
