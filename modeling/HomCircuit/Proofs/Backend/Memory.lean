import HomCircuit.Proofs.Backend.Devices
import HomCircuit.Proofs.Except

/-!
# HomCircuit.Proofs.Backend.Memory

What is known of the words on devices, whatever becomes of the devices.

```
words put there  →  … other allocations, faults, frees …  →  the same words are read, or an error
```

An allocation is written once, and its number is not given out again. So whoever knows which words
were put there knows what is read there later. Whether the allocation still exists, and whether its
device is in order, is left open; which primitives a device has does not matter either.

* `Device.Later`, `Inventory.Later` — what may have become of devices;
* `Inventory.Ages` — jobs after each of whose sections devices are later than before;
* `Inventory.Recalls`, `Inventory.Knows` — which words were put where, a knowledge that only grows;
* `Inventory.learns_operate` — the result of an operation is what the primitives of its device make of
  the words of its inputs.
-/

namespace HomCircuit

/-! ## one device -/

namespace Device

variable {d d' d'' : Device} {words : Ciphertext} {h : DeviceHandle}

/-- No number that is to come is in use. -/
def Numbered (d : Device) : Prop := ∀ b ∈ d.buffers, b.1 < d.nextSlot

/-- A device after some allocations were made and others were freed. -/
structure Later (d d' : Device) : Prop where
  id : d'.id = d.id
  primitives : d'.primitives = d.primitives
  next : d.nextSlot ≤ d'.nextSlot
  /-- What was there once is there with the same words, or not at all. -/
  kept : ∀ slot < d.nextSlot, ∀ words, d'.buffers.lookup slot = some words →
    d.buffers.lookup slot = some words
  numbered : d.Numbered → d'.Numbered

theorem Later.refl (d : Device) : d.Later d :=
  ⟨rfl, rfl, le_rfl, fun _ _ _ found => found, fun numbered => numbered⟩

theorem Later.trans (h : d.Later d') (h' : d'.Later d'') : d.Later d'' where
  id := h'.id.trans h.id
  primitives := h'.primitives.trans h.primitives
  next := h.next.trans h'.next
  kept slot lt words found :=
    h.kept slot lt words (h'.kept slot (lt.trans_le h.next) words found)
  numbered numbered := h'.numbered (h.numbered numbered)

/-- A new allocation gets the next number. -/
theorem allocated (made : d.allocate words = .ok (h, d')) :
    d.Later d' ∧ h.device = d.id ∧ h.slot = d.nextSlot ∧ h.slot < d'.nextSlot ∧
      d'.buffers.lookup h.slot = some words := by
  unfold Device.allocate at made
  dsimp only at made
  split at made
  · contradiction
  · obtain ⟨rfl, rfl⟩ := Prod.mk.inj (Except.ok.inj made)
    refine ⟨⟨rfl, rfl, Nat.le_succ _, fun slot lt words found => ?_, fun numbered b mem => ?_⟩, rfl,
      rfl, Nat.lt_succ_self _, List.lookup_cons_self⟩
    · rwa [List.lookup_cons, beq_eq_false_iff_ne.mpr lt.ne] at found
    · rcases List.mem_cons.mp mem with rfl | old
      · exact Nat.lt_succ_self _
      · exact Nat.lt_succ_of_lt (numbered b old)

/-- Nothing new is there after an allocation was freed. -/
theorem Later.free (d : Device) (h : DeviceHandle) : d.Later (d.free h) := by
  unfold Device.free
  split
  · exact .refl d
  · refine ⟨rfl, rfl, le_rfl, fun slot _ words found => ?_,
      fun numbered b mem => numbered b (List.mem_of_mem_filter mem)⟩
    have kept := KeyCache.lookup_filter_key (fun k => decide (k ≠ h.slot)) slot d.buffers
    simp only [found] at kept
    split at kept
    · exact kept.symm
    · contradiction

end Device

/-! ## all devices -/

namespace Inventory

variable {v v' v'' : Inventory} {i : Nat} {words : Ciphertext} {h : DeviceHandle}

/-- No number that is to come is in use on any device. -/
def Numbered (v : Inventory) : Prop := ∀ i < v.devices.size, (v.device i).Numbered

/-- The devices after some operations. -/
structure Later (v v' : Inventory) : Prop where
  size : v'.devices.size = v.devices.size
  device : ∀ i < v.devices.size, (v.device i).Later (v'.device i)

theorem Later.of_devices (same : v'.devices = v.devices) : v.Later v' := by
  refine ⟨congrArg Array.size same, fun i _ => ?_⟩
  rw [Inventory.device, Inventory.device, same]
  exact .refl _

theorem Later.trans (h : v.Later v') (h' : v'.Later v'') : v.Later v'' where
  size := h'.size.trans h.size
  device i lt := (h.device i lt).trans (h'.device i (h.size ▸ lt))

/-- One device has changed. -/
theorem Later.setDevice {d : Device} (h : (v.device i).Later d) : v.Later (v.setDevice i d) := by
  refine ⟨size_setDevice v i d, fun j lt => ?_⟩
  by_cases inside : i < v.devices.size
  · rw [device_setDevice inside]
    split
    · next same => exact same ▸ h
    · exact .refl _
  · have same : (v.setDevice i d).devices = v.devices :=
      Array.setIfInBounds_eq_of_size_le (Nat.le_of_not_lt inside)
    rw [Inventory.device, Inventory.device, same]
    exact .refl _

theorem Later.free (v : Inventory) (place : Resident) : v.Later (v.free place) :=
  .setDevice (.free _ _)

theorem Later.dropBuffers (v : Inventory) (bs : List Buffer) : v.Later (v.dropBuffers bs) := by
  induction bs generalizing v with
  | nil => exact .of_devices rfl
  | cons b bs ih =>
      refine Later.trans ?_ (ih (v.dropBuffer b))
      unfold dropBuffer
      split
      · exact .free v _
      · exact .of_devices rfl

theorem Later.ids (h : v.Later v') : v'.ids = v.ids := by
  refine List.ext_getElem (by simp [Inventory.ids, h.size]) fun j lt lt' => ?_
  have inside : j < v.devices.size := by simpa [Inventory.ids] using lt'
  have same := (h.device j inside).id
  simpa [Inventory.ids, Inventory.device, Array.getD, inside, h.size] using same

/-! ## what is known -/

/-- The words of a deposit were put in its allocation, so that there is nothing else in it. -/
structure Recalls (v : Inventory) (x : Deposit) : Prop where
  inside : x.place.owner < v.devices.size
  label : x.place.handle.device = (v.device x.place.owner).id
  given : x.place.handle.slot < (v.device x.place.owner).nextSlot
  words : ∀ words, (v.device x.place.owner).buffers.lookup x.place.handle.slot = some words →
    words = x.words

/-- What was known of an inventory is known of it later. -/
theorem Recalls.later {x : Deposit} (r : v.Recalls x) (h : v.Later v') : v'.Recalls x where
  inside := h.size ▸ r.inside
  label := r.label.trans (h.device _ r.inside).id.symm
  given := r.given.trans_le (h.device _ r.inside).next
  words words found := r.words words ((h.device _ r.inside).kept _ r.given words found)

/-- What is known of an inventory since it was first seen: which words were put into allocations. -/
structure Knows (v₀ v : Inventory) (known : List Deposit) : Prop where
  later : v₀.Later v
  numbered : v.Numbered
  recalls : ∀ x ∈ known, v.Recalls x
  /-- No allocation was written twice. -/
  once : ∀ x ∈ known, ∀ y ∈ known, x.place = y.place → x = y

variable {v₀ : Inventory} {known own own' : List Deposit}

theorem Knows.mono (k : v₀.Knows v known) (sub : own ⊆ known) : v₀.Knows v own :=
  { k with
    recalls := fun x mem => k.recalls x (sub mem)
    once := fun x hx y hy => k.once x (sub hx) y (sub hy) }

theorem Knows.after (k : v₀.Knows v known) (h : v.Later v') : v₀.Knows v' known where
  later := k.later.trans h
  numbered i lt := (h.device i (h.size ▸ lt)).numbered (k.numbered i (h.size ▸ lt))
  recalls x mem := (k.recalls x mem).later h
  once := k.once

/-- A new allocation is known from then on. -/
theorem Knows.allocate (k : v₀.Knows v known) (inside : i < v.devices.size) {d : Device}
    (made : (v.device i).allocate words = .ok (h, d)) :
    v₀.Knows (v.setDevice i d) (⟨⟨i, h⟩, words⟩ :: known) := by
  obtain ⟨later, label, next, given, found⟩ := Device.allocated made
  have after := k.after (Later.setDevice later)
  -- the number of the allocation was not in use, so that nothing was known under it
  have fresh : ∀ x ∈ known, x.place ≠ ⟨i, h⟩ := by
    rintro x mem same
    have given := (k.recalls x mem).given
    rw [same] at given
    exact given.ne next
  refine { after with recalls := List.forall_mem_cons.mpr ⟨?_, after.recalls⟩, once := ?_ }
  · exact
      { inside := (size_setDevice v i d).symm ▸ inside
        label := by rw [device_setDevice inside, if_pos rfl, later.id, label]
        given := by rw [device_setDevice inside, if_pos rfl]; exact given
        words := fun words there => by
          rw [device_setDevice inside, if_pos rfl, found] at there
          exact (Option.some.inj there).symm }
  · intro x hx y hy same
    rcases List.mem_cons.mp hx with rfl | hx <;> rcases List.mem_cons.mp hy with rfl | hy
    · rfl
    · exact absurd same.symm (fresh y hy)
    · exact absurd same (fresh x hx)
    · exact k.once x hx y hy same

end Inventory

/-- A buffer has some words, by what is known of devices. -/
def Buffer.Reads (b : Buffer) (known : List Deposit) (words : Ciphertext) : Prop :=
  ∃ ds, b.payload.Stands (.ciphertext words) ds ∧ ds ⊆ known

namespace Buffer

variable {b : Buffer} {known known' : List Deposit} {words words' : Ciphertext}

theorem Reads.mono (h : b.Reads known words) (more : known ⊆ known') : b.Reads known' words := by
  obtain ⟨ds, stands, there⟩ := h
  exact ⟨ds, stands, fun x mem => more (there mem)⟩

theorem reads_host (host : b.payload = .host (.ciphertext words)) : b.Reads known words :=
  ⟨[], host ▸ .host _, List.nil_subset _⟩

theorem reads_device {place : Resident} (device : b.payload = .device place)
    (mem : ⟨place, words⟩ ∈ known) : b.Reads known words :=
  ⟨[⟨place, words⟩], by rw [device]; exact .device place words,
    List.cons_subset.mpr ⟨mem, List.nil_subset _⟩⟩

/-- A buffer that has some words has them on the host, or they are known to be on a device. -/
theorem Reads.cases (h : b.Reads known words) :
    b.payload = .host (.ciphertext words) ∨
      ∃ place, b.payload = .device place ∧ (⟨place, words⟩ : Deposit) ∈ known := by
  obtain ⟨ds, stands, there⟩ := h
  generalize b.payload = payload at stands
  generalize value : Value.ciphertext words = x at stands
  cases stands with
  | host v => exact .inl rfl
  | device place words' =>
      obtain rfl := Value.ciphertext.inj value
      exact .inr ⟨place, rfl, there List.mem_cons_self⟩

/-- A buffer has one content, as long as no allocation was written twice. -/
theorem Reads.unique {v₀ v : Inventory} (k : v₀.Knows v known) (h : b.Reads known words)
    (h' : b.Reads known words') : words = words' := by
  rcases h.cases with host | ⟨place, device, mem⟩
  · rcases h'.cases with host' | ⟨place', device', -⟩
    · simpa [host] using host'
    · simp [host] at device'
  · rcases h'.cases with host' | ⟨place', device', mem'⟩
    · simp [device] at host'
    · obtain rfl : place = place' := by simpa [device] using device'
      exact congrArg Deposit.words (k.once _ mem _ mem' rfl)

end Buffer

/-! ## what jobs leave of devices -/

namespace Inventory

variable {v : Inventory} {i : Nat} {words : Ciphertext}

theorem devices_download (v : Inventory) (r : Resident) : (v.download r).2.devices = v.devices := by
  unfold Inventory.download
  split <;> rfl

/-- Every section of a job leaves devices on which what was written stays as it was. -/
def Ages {α : Type} (j : Job Inventory α) : Prop := j.Ensures (fun _ => True) Later fun _ => True

/-- An allocation that is made changes one device, and one that is refused none. -/
theorem Allocates.later {made : Except DeviceError DeviceHandle × Inventory}
    (h : Allocates i words v made) : v.Later made.2 := by
  unfold Allocates at h
  cases result : made.1 with
  | error err =>
      rw [result] at h
      exact .of_devices h
  | ok handle =>
      rw [result] at h
      obtain ⟨d, allocated, devices⟩ := h
      exact (Later.setDevice (Device.allocated allocated).1).trans (.of_devices devices)

theorem Ages.allocation {act : Inventory → Except DeviceError DeviceHandle × Inventory}
    (allocates : ∀ v, Allocates i words v (act v)) : Ages (Job.atomic act) :=
  Job.Ensures.atomic fun v _ => ⟨(allocates v).later, trivial⟩

theorem Ages.look {α : Type} {f : Inventory → α} : Ages (Job.look f) :=
  Job.Ensures.look fun _ _ => ⟨.of_devices rfl, trivial⟩

theorem Ages.download (place : Resident) : Ages (Job.atomic (·.download place)) :=
  Job.Ensures.atomic fun v _ => ⟨.of_devices (v.devices_download place), trivial⟩

theorem Ages.select : Ages (Job.atomic Inventory.select) :=
  Job.Ensures.atomic fun v _ => ⟨.of_devices v.devices_select, trivial⟩

theorem Ages.free (place : Resident) : Ages (Job.change (·.free place)) :=
  Job.Ensures.change (fun v _ => .free v place) trivial

theorem Ages.stage (i : Nat) (b : Buffer) : Ages (Inventory.stage i b) := by
  have moveIn (words : Ciphertext) : Ages (do
      let h ← Job.atomic (·.upload i words)
      return h.map (·, true) : Job Inventory (Except DeviceError (DeviceHandle × Bool))) :=
    .bind (allocation (allocates_upload · i words)) fun _ _ => trivial
  unfold Inventory.stage
  cases b.payload with
  | host v =>
      cases v with
      | ciphertext words => exact moveIn words
      | cleartext number => exact look
      | simulated s => exact look
  | device place =>
      refine .bind look fun here _ => ?_
      by_cases there : here = true
      · rw [if_pos there]
        exact trivial
      · rw [if_neg there]
        refine .bind (download place) fun r _ => ?_
        cases r with
        | error err => exact trivial
        | ok words => exact moveIn words

theorem Ages.stageAll (i : Nat) (handles moved : List DeviceHandle) (bs : List Buffer) :
    Ages (Inventory.stageAll i handles moved bs) := by
  induction bs generalizing handles moved with
  | nil => exact trivial
  | cons b rest ih =>
      refine .bind (stage i b) fun r _ => ?_
      cases r with
      | error err => exact trivial
      | ok r => exact ih _ _

theorem Ages.unstage (i : Nat) (moved : List DeviceHandle) : Ages (Inventory.unstage i moved) := by
  induction moved with
  | nil => exact trivial
  | cons h rest ih => exact .bind (free ⟨i, h⟩) fun _ _ => ih

/-- What a primitive gives is kept on the device. -/
theorem Ages.kept (i : Nat) (d : Device) (ran : Outcome PrimitiveError Ciphertext) :
    Ages (match ran with
      | .crashed text => return .crashed text
      | .failed e => return .failed (.kernel d.id e.message)
      | .done words => return .ofExcept (← Job.atomic (·.keepOutput i words)) :
        Job Inventory (Outcome DeviceError DeviceHandle)) := by
  cases ran with
  | crashed text => exact trivial
  | failed err => exact trivial
  | done words => exact .bind (allocation (allocates_keepOutput · i words)) fun _ _ => trivial

theorem Ages.compute (i : Nat) (op : Operation) (handles : List DeviceHandle) (keys : OperationKeys)
    (nonce : UInt64) : Ages (Inventory.compute i op handles keys nonce) := by
  refine .bind look fun ⟨inputs, d⟩ _ => ?_
  cases inputs with
  | error err => exact trivial
  | ok inputs =>
      have kept := Ages.kept i d (d.primitives.run op inputs keys nonce)
      dsimp only
      split
      · exact .bind (.tell trivial) fun _ (_ : True) => kept
      · exact kept

end Inventory

/-! ## one operation -/

namespace Inventory

variable {v₀ v v' : Inventory} {own own' : List Deposit} {i : Nat} {words : Ciphertext}

/-- A section adds to what its job knows, and takes nothing from what others know. -/
def Learns (v₀ : Inventory) (own own' : List Deposit) (v v' : Inventory) : Prop :=
  ∀ known, own ⊆ known → v₀.Knows v known →
    ∃ known', known ⊆ known' ∧ own' ⊆ known' ∧ v₀.Knows v' known'

/-- What a job may rely on between its sections: what it knows. -/
def Known (v₀ : Inventory) (own : List Deposit) (v : Inventory) : Prop := v₀.Knows v own

theorem Learns.later (h : v.Later v') : Learns v₀ own own v v' :=
  fun known sub k => ⟨known, List.Subset.refl _, sub, k.after h⟩

theorem Learns.same (h : v'.devices = v.devices) : Learns v₀ own own v v' := .later (.of_devices h)

/-- A section that makes an allocation, or is refused. -/
theorem learns_allocation {act : Inventory → Except DeviceError DeviceHandle × Inventory}
    (inside : i < v₀.devices.size) (allocates : ∀ v, Allocates i words v (act v)) :
    Job.Tracks (Known v₀) (Learns v₀)
      (fun own' => Settles (fun h => own' = ⟨⟨i, h⟩, words⟩ :: own) fun _ => own' = own) own
      (Job.atomic act) := by
  refine .atomic fun v known => ?_
  have allocates := allocates v
  unfold Allocates at allocates
  cases result : (act v).1 with
  | error err =>
      rw [result] at allocates
      exact ⟨own, .same allocates, rfl⟩
  | ok h =>
      rw [result] at allocates
      obtain ⟨d, made, devices⟩ := allocates
      refine ⟨⟨⟨i, h⟩, words⟩ :: own, fun known sub k => ?_, rfl⟩
      have stored := k.allocate (k.later.size ▸ inside) made
      exact ⟨_, List.subset_cons_self _ _, List.cons_subset_cons _ sub,
        stored.after (.of_devices devices)⟩

/-- Words that are downloaded from a known allocation are those that were put there. -/
theorem Recalls.download {x : Deposit} (r : v.Recalls x) {words : Ciphertext}
    (read : (v.download x.place).1 = .ok words) : words = x.words := by
  unfold Inventory.download Device.download Device.read at read
  cases order : (v.device x.place.owner).faulted with
  | true => simp [order] at read
  | false =>
      cases found : (v.device x.place.owner).buffers.lookup x.place.handle.slot with
      | none => simp [order, found] at read
      | some there =>
          have same : there = words := by simpa [order, found] using read
          exact same ▸ r.words there found

theorem learns_download {x : Deposit} (mem : x ∈ own) :
    Job.Tracks (Known v₀) (Learns v₀)
      (fun own' r => own' = own ∧ ∀ words, r = .ok words → words = x.words) own
      (Job.atomic (·.download x.place)) :=
  .atomic fun v known => ⟨own, .same (v.devices_download _), rfl,
    fun _ read => (known.recalls x mem).download read⟩

theorem learns_free (place : Resident) :
    Job.Tracks (Known v₀) (Learns v₀) (fun own' _ => own' = own) own (Job.change (·.free place)) :=
  .change fun v _ => ⟨own, .later (.free v place), rfl⟩

/-! ### inputs -/

/-- A handle on a device is that of some words, unless devices share a number. -/
def Handles (v₀ : Inventory) (own : List Deposit) (i : Nat) (words : Ciphertext)
    (h : DeviceHandle) : Prop :=
  v₀.ids.Nodup → (⟨⟨i, h⟩, words⟩ : Deposit) ∈ own

theorem learns_moveIn (inside : i < v₀.devices.size) (words : Ciphertext) :
    Job.Tracks (Known v₀) (Learns v₀)
      (fun own' => Settles (fun r => own ⊆ own' ∧ Handles v₀ own' i words r.1) fun _ => own' = own)
      own
      (do
        let h ← Job.atomic (·.upload i words)
        return h.map (·, true) : Job Inventory (Except DeviceError (DeviceHandle × Bool))) := by
  refine .bind (learns_allocation inside (allocates_upload · i words)) fun own' r settled => ?_
  cases r with
  | error err => exact settled
  | ok h =>
      obtain rfl : own' = ⟨⟨i, h⟩, words⟩ :: own := settled
      exact ⟨List.subset_cons_self _ _, fun _ => List.mem_cons_self⟩

/-- An input is brought to a device with its words, where it is not taken as it is. -/
theorem learns_stage (inside : i < v₀.devices.size) {b : Buffer} (reads : b.Reads own words) :
    Job.Tracks (Known v₀) (Learns v₀)
      (fun own' => Settles (fun r => own ⊆ own' ∧ Handles v₀ own' i words r.1) fun _ => own' = own)
      own (stage i b) := by
  unfold stage
  rcases reads.cases with host | ⟨place, device, mem⟩
  · rw [host]
    exact learns_moveIn inside words
  · rw [device]
    refine .bind (P := fun own' same => own' = own ∧
      (same = true → Handles v₀ own i words place.handle)) (.look fun v known => ?_) ?_
    · refine ⟨.same rfl, rfl, fun same apart => ?_⟩
      have recalls := known.recalls _ mem
      have owner : place.owner = i := by
        refine eq_of_id (known.later.ids.symm ▸ apart) recalls.inside (known.later.size ▸ inside) ?_
        rw [← recalls.label]
        simpa using same
      rwa [← owner]
    · rintro own' same ⟨rfl, handles⟩
      by_cases here : same = true
      · rw [if_pos here]
        exact ⟨List.Subset.refl _, handles here⟩
      · rw [if_neg here]
        refine .bind (learns_download mem) ?_
        rintro own' r ⟨rfl, read⟩
        cases r with
        | error err => exact rfl
        | ok words' =>
            obtain rfl := read words' rfl
            exact learns_moveIn inside _

/-- All inputs are brought to a device with their words. -/
theorem learns_stageAll (inside : i < v₀.devices.size) {bs : List Buffer}
    {words done : List Ciphertext} {handles moved : List DeviceHandle}
    (reads : List.Forall₂ (fun b w => b.Reads own w) bs words)
    (staged : List.Forall₂ (Handles v₀ own i) done handles.reverse) :
    Job.Tracks (Known v₀) (Learns v₀)
      (fun own' r => ∀ hs, r.1 = .ok hs → List.Forall₂ (Handles v₀ own' i) (done ++ words) hs) own
      (stageAll i handles moved bs) := by
  induction bs generalizing own done words handles moved with
  | nil =>
      cases reads
      intro hs same
      obtain rfl := Except.ok.inj same
      rwa [List.append_nil]
  | cons b rest ih =>
      obtain ⟨w, words, first, others, rfl⟩ := List.forall₂_cons_left_iff.mp reads
      refine .bind (learns_stage inside first) fun own' r settled => ?_
      cases r with
      | error err => exact nofun
      | ok r =>
          obtain ⟨more, here⟩ := settled
          have staged' :
              List.Forall₂ (Handles v₀ own' i) (done ++ [w]) (r.1 :: handles).reverse := by
            rw [List.reverse_cons]
            exact List.rel_append (staged.imp fun _ _ old apart => more (old apart)) (.cons here .nil)
          refine (ih (others.imp fun _ _ old => old.mono more) staged').mono fun own'' r both => ?_
          simpa using both

theorem learns_unstage (i : Nat) (moved : List DeviceHandle) :
    Job.Tracks (Known v₀) (Learns v₀) (fun own' _ => own' = own) own (unstage i moved) := by
  induction moved with
  | nil => exact rfl
  | cons h rest ih =>
      refine .bind (learns_free _) ?_
      rintro own' - rfl
      exact ih

/-! ### the operation -/

/-- Known handles are read as the words that were put there. -/
theorem Knows.readAll {known : List Deposit} (k : v₀.Knows v known) {words given : List Ciphertext}
    {handles : List DeviceHandle}
    (there : List.Forall₂ (fun w h => (⟨⟨i, h⟩, w⟩ : Deposit) ∈ known) words handles)
    (read : (v.device i).readAll handles = .ok given) : given = words := by
  induction there generalizing given with
  | nil => exact (Except.ok.inj read).symm
  | @cons w h words handles first rest ih =>
      simp only [Device.readAll] at read
      obtain ⟨w', here, read⟩ := Except.exists_of_bind read
      obtain ⟨ws, others, read⟩ := Except.exists_of_bind read
      obtain rfl := Except.ok.inj read
      rw [ih others]
      refine congrArg (· :: words) ((k.recalls _ first).words w' ?_)
      unfold Device.read at here
      split at here
      · next found => rw [found, Except.ok.inj here]
      · contradiction

/-- The result of an operation on a device, under its own primitives and on the words of its inputs,
unless devices share a number. -/
structure Makes (v₀ : Inventory) (i : Nat) (op : Operation) (words : List Ciphertext)
    (keys : OperationKeys) (nonce : UInt64) (ct : Ciphertext) : Prop where
  inside : i < v₀.devices.size
  made : ∃ given, (v₀.ids.Nodup → given = words) ∧
    (v₀.device i).primitives.run op given keys nonce = .done ct

end Inventory

/-- A result is as told; nothing is told of an error or a crash. -/
def Outcome.Gives {ε α : Type} (good : α → Prop) (o : Outcome ε α) : Prop := ∀ a, o = .done a → good a

theorem Outcome.gives_failed {ε α : Type} {good : α → Prop} {err : ε} :
    (Outcome.failed err : Outcome ε α).Gives good := nofun

theorem Outcome.gives_crashed {ε α : Type} {good : α → Prop} {text : Option String} :
    (Outcome.crashed text : Outcome ε α).Gives good := nofun

namespace Inventory

variable {v₀ v : Inventory} {own : List Deposit} {i : Nat}

/-- What primitives make becomes a known allocation. -/
theorem learns_made (inside : i < v₀.devices.size) {op : Operation} {words given : List Ciphertext}
    {keys : OperationKeys} {nonce : UInt64} {d : Device}
    (same : d.primitives = (v₀.device i).primitives) (read : v₀.ids.Nodup → given = words) :
    Job.Tracks (Known v₀) (Learns v₀)
      (fun own' => Outcome.Gives fun h =>
        ∃ ct, (⟨⟨i, h⟩, ct⟩ : Deposit) ∈ own' ∧ v₀.Makes i op words keys nonce ct) own
      (match d.primitives.run op given keys nonce with
      | .crashed text => return .crashed text
      | .failed e => return .failed (.kernel d.id e.message)
      | .done words => return .ofExcept (← Job.atomic (·.keepOutput i words)) :
        Job Inventory (Outcome DeviceError DeviceHandle)) := by
  cases ran : d.primitives.run op given keys nonce with
  | crashed text => exact Outcome.gives_crashed
  | failed err => exact Outcome.gives_failed
  | done ct =>
      refine .bind (learns_allocation inside (allocates_keepOutput · i ct)) fun own' r settled => ?_
      cases r with
      | error err => exact Outcome.gives_failed
      | ok h =>
          obtain rfl : own' = ⟨⟨i, h⟩, ct⟩ :: own := settled
          intro h' same'
          obtain rfl := Outcome.done.inj same'
          exact ⟨ct, List.mem_cons_self, inside, given, read, same ▸ ran⟩

/-- An operation on handles makes a known allocation of its result. -/
theorem learns_compute (inside : i < v₀.devices.size) (op : Operation) {words : List Ciphertext}
    {handles : List DeviceHandle} (keys : OperationKeys) (nonce : UInt64)
    (staged : List.Forall₂ (Handles v₀ own i) words handles) :
    Job.Tracks (Known v₀) (Learns v₀)
      (fun own' => Outcome.Gives fun h =>
        ∃ ct, (⟨⟨i, h⟩, ct⟩ : Deposit) ∈ own' ∧ v₀.Makes i op words keys nonce ct) own
      (compute i op handles keys nonce) := by
  refine .bind (P := fun own' r => own' = own ∧ r.2.primitives = (v₀.device i).primitives ∧
    ∀ given, r.1 = .ok given → v₀.ids.Nodup → given = words) (.look fun v known => ?_) ?_
  · refine ⟨.same rfl, rfl, (known.later.device i inside).primitives, fun given read apart => ?_⟩
    refine known.readAll (staged.imp fun _ _ here => here apart) ?_
    unfold Device.inputsOf at read
    split at read
    · contradiction
    · exact read
  · rintro own' ⟨inputs, d⟩ ⟨rfl, same, given⟩
    cases inputs with
    | error err => exact Outcome.gives_failed
    | ok inputs =>
        dsimp only
        split
        · exact .bind (P := fun own'' _ => own'' = own') (.tell rfl) fun own'' _ here =>
            here ▸ learns_made inside same (given inputs rfl)
        · exact learns_made inside same (given inputs rfl)

/-- An output stays on its device, or is brought back, with its words. -/
theorem learns_settle (inside : i < v₀.devices.size) {h : DeviceHandle} {ct : Ciphertext}
    (keep : Bool) (mem : (⟨⟨i, h⟩, ct⟩ : Deposit) ∈ own) :
    Job.Tracks (Known v₀) (Learns v₀)
      (fun own' => Outcome.Gives fun out =>
        (∀ v p, (⟨v, p, out.1⟩ : Buffer).Reads own' ct) ∧ out.2 = (v₀.device i).id) own
      (settle i h keep) := by
  refine .bind (P := fun own' id => own' = own ∧ id = (v₀.device i).id)
    (.look fun v known => ⟨.same rfl, rfl, (known.later.device i inside).id⟩) ?_
  rintro own' id ⟨rfl, rfl⟩
  by_cases kept : keep = true
  · rw [if_pos kept]
    intro out same
    obtain rfl := Outcome.done.inj same
    exact ⟨fun _ _ => Buffer.reads_device rfl mem, rfl⟩
  · rw [if_neg kept]
    refine .bind (learns_download mem) ?_
    rintro own' r ⟨rfl, read⟩
    refine .bind (learns_free _) ?_
    rintro own' - rfl
    intro out same
    cases r with
    | error err => contradiction
    | ok words =>
        obtain rfl := read words rfl
        obtain rfl := Outcome.done.inj same
        exact ⟨fun _ _ => Buffer.reads_host rfl, rfl⟩

/-- An operation on whatever devices: if it has a result, this is what the primitives of the device
that is told make of the words of the inputs, and from then on it is known where it is. -/
theorem learns_operate (op : Operation) {inputs : List Buffer} {words : List Ciphertext}
    (keys : OperationKeys) (nonce : UInt64) (keep : Bool)
    (reads : List.Forall₂ (fun b w => b.Reads own w) inputs words) :
    Job.Tracks (Known v₀) (Learns v₀)
      (fun own' => Outcome.Gives fun out => ∃ i ct, out.2 = (v₀.device i).id ∧
        (∀ v p, (⟨v, p, out.1⟩ : Buffer).Reads own' ct) ∧ v₀.Makes i op words keys nonce ct) own
      (operate op inputs keys nonce keep) := by
  refine .bind (P := fun own' selected => own' = own ∧
    ∀ i, selected = .ok i → i < v₀.devices.size) (.atomic fun v known => ?_) ?_
  · refine ⟨own, .same v.devices_select, rfl, fun i selected => ?_⟩
    rw [← known.later.size]
    exact lt_of_select selected
  rintro own' selected ⟨rfl, inside⟩
  cases selected with
  | error err => exact nofun
  | ok i =>
      have inside := inside i rfl
      refine .bind (learns_stageAll inside reads .nil) ?_
      rintro own ⟨staged, moved⟩ handles
      cases staged with
      | error err => exact .bind (learns_unstage i moved) fun _ _ _ => nofun
      | ok hs =>
          refine .bind (learns_compute inside op keys nonce (handles hs rfl)) ?_
          intro own computed gives
          cases computed with
          | failed err => exact .bind (learns_unstage i moved) fun _ _ _ => nofun
          | crashed text => exact .bind (learns_unstage i moved) fun _ _ _ => nofun
          | done h =>
              obtain ⟨ct, mem, makes⟩ := gives h rfl
              refine .bind (learns_unstage i moved) ?_
              rintro own' - rfl
              refine (learns_settle inside keep mem).mono fun own' out settled made same => ?_
              obtain ⟨reads, id⟩ := settled made same
              exact ⟨i, ct, id, reads, makes⟩

end Inventory

end HomCircuit
