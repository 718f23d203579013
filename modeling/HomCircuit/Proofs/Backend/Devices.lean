import HomCircuit.Proofs.Job.Contract
import HomCircuit.Proofs.Key.Slots
import HomCircuit.Proofs.Schedule.Stock

/-!
# HomCircuit.Proofs.Backend.Devices

What an operation on devices does to the allocations of an inventory, while other jobs come between its
sections.

```
stage      inputs moved in    +  one deposit each
compute    the output         +  one deposit
unstage    inputs moved in    −  one deposit each
settle     the output            stays, or is brought back and freed
```

Deposits of others are never touched: a number is not given twice, and a job frees what it has in hand
alone. Devices are told apart by their numbers. Where two have the same, an operation may take an
allocation of one for that of the other, and then it computes on other words.

* `Inventory.Stores` — the devices of an inventory, all in order, and what is deposited on them;
* `Inventory.Ready`, `Inventory.Trades` — what a job relies on between its sections, and what a section
  does to its deposits;
* `Inventory.tracks_operate` — an operation that fails leaves nothing behind; one that succeeds leaves
  its output alone, where it was told to.
-/

namespace HomCircuit

/-! ## one device -/

/-- A device in order, with the reference arithmetic, that has not used the numbers to come. -/
structure Device.Sound (d : Device) : Prop where
  inOrder : d.faulted = false
  reference : d.primitives = .reference
  used : ∀ b ∈ d.buffers, b.1 < d.nextSlot

namespace Device

variable {d d' : Device} {words : Ciphertext} {h : DeviceHandle}

/-- A new allocation has a number of its own. -/
theorem Sound.allocate (s : d.Sound) (made : d.allocate words = .ok (h, d')) :
    d'.Sound ∧ d'.id = d.id ∧ h.device = d.id ∧ d.buffers.lookup h.slot = none ∧
      ∀ slot, d'.buffers.lookup slot =
        if slot = h.slot then some words else d.buffers.lookup slot := by
  unfold Device.allocate at made
  dsimp only at made
  split at made
  · contradiction
  · obtain ⟨rfl, rfl⟩ := Prod.mk.inj (Except.ok.inj made)
    refine ⟨⟨s.inOrder, s.reference, fun b mem => ?_⟩, rfl, rfl, ?_, fun slot => ?_⟩
    · rcases List.mem_cons.mp mem with rfl | old
      · exact Nat.lt_succ_self _
      · exact Nat.lt_succ_of_lt (s.used b old)
    · refine List.lookup_eq_none_iff.mpr fun b mem => ?_
      exact bne_iff_ne.mpr (Nat.ne_of_gt (s.used b mem))
    · by_cases same : slot = d.nextSlot
      · simp [same]
      · simp [List.lookup_cons, beq_eq_false_iff_ne.mpr same, same]

/-- An allocation that is freed is gone, and no other. -/
theorem Sound.free (s : d.Sound) (h : DeviceHandle) :
    (d.free h).Sound ∧ (d.free h).id = d.id ∧
      ∀ slot, slot ≠ h.slot → (d.free h).buffers.lookup slot = d.buffers.lookup slot := by
  unfold Device.free
  split
  · exact ⟨s, rfl, fun _ _ => rfl⟩
  · refine ⟨⟨s.inOrder, s.reference, fun b mem => s.used b (List.mem_of_mem_filter mem)⟩, rfl,
      fun slot apart => ?_⟩
    have kept := KeyCache.lookup_filter_key (fun k => decide (k ≠ h.slot)) slot d.buffers
    rwa [if_pos (by simpa using apart)] at kept

end Device

/-! ## what is deposited -/

/-- The device of a deposit, by its place, and the number of the allocation there. -/
def Deposit.cell (x : Deposit) : Nat × Nat := (x.place.owner, x.place.handle.slot)

/-- The words of a deposit are in its allocation. -/
structure Inventory.Holds (v : Inventory) (x : Deposit) : Prop where
  inside : x.place.owner < v.devices.size
  label : x.place.handle.device = (v.device x.place.owner).id
  words : (v.device x.place.owner).buffers.lookup x.place.handle.slot = some x.words

/-- All devices of an inventory are in order. -/
def Inventory.Sound (v : Inventory) : Prop := ∀ i < v.devices.size, (v.device i).Sound

/-- The numbers of the devices of an inventory. -/
def Inventory.ids (v : Inventory) : List DeviceId := v.devices.toList.map Device.id

/-- The devices of an inventory have some numbers and are in order, and some words are deposited in
allocations of their own. -/
structure Inventory.Stores (v : Inventory) (ids : List DeviceId) (ds : List Deposit) : Prop where
  ids : v.ids = ids
  sound : v.Sound
  holds : ∀ x ∈ ds, v.Holds x
  distinct : (ds.map Deposit.cell).Nodup

namespace Inventory

variable {v v' : Inventory} {ids : List DeviceId} {ds ds' : List Deposit} {i : Nat}

theorem device_setDevice (inside : i < v.devices.size) (d : Device) (j : Nat) :
    (v.setDevice i d).device j = if j = i then d else v.device j := by
  simp only [device, setDevice, Array.getD_eq_getD_getElem?, Array.getElem?_setIfInBounds]
  by_cases same : i = j
  · simp [same, same ▸ inside]
  · simp [same, Ne.symm same]

@[simp]
theorem size_setDevice (v : Inventory) (i : Nat) (d : Device) :
    (v.setDevice i d).devices.size = v.devices.size := by
  simp [setDevice]

theorem ids_setDevice (inside : i < v.devices.size) {d : Device} (same : d.id = (v.device i).id) :
    (v.setDevice i d).ids = v.ids := by
  refine List.ext_getElem (by simp [Inventory.ids, setDevice]) fun j lt lt' => ?_
  have there : v.device i = v.devices[i] := by simp [device, Array.getD, inside]
  by_cases at_ : i = j
  · subst at_
    simp [Inventory.ids, setDevice, same, there]
  · simp [Inventory.ids, setDevice, at_]

/-- Devices with numbers of their own are told apart by them. -/
theorem eq_of_id (apart : v.ids.Nodup) {j : Nat} (hi : i < v.devices.size) (hj : j < v.devices.size)
    (same : (v.device i).id = (v.device j).id) : i = j := by
  rw [Inventory.ids] at apart
  refine (@List.Nodup.getElem_inj_iff _ _ apart i (by simpa using hi) j (by simpa using hj)).mp ?_
  simpa [Inventory.device, Array.getD, hi, hj] using same

/-- Before anything is deposited. -/
theorem Sound.stores (sound : v.Sound) : v.Stores v.ids [] :=
  { ids := rfl, sound, holds := fun _ mem => absurd mem List.not_mem_nil, distinct := List.nodup_nil }

namespace Stores

/-- What is deposited is on the devices alone. -/
theorem congr (st : v.Stores ids ds) (same : v'.devices = v.devices) : v'.Stores ids ds := by
  have device (j : Nat) : v'.device j = v.device j := by simp only [Inventory.device, same]
  exact
    { ids := by simpa only [Inventory.ids, same] using st.ids
      sound := fun i inside => device i ▸ st.sound i (same ▸ inside)
      holds := fun x mem =>
        { inside := same ▸ (st.holds x mem).inside
          label := device _ ▸ (st.holds x mem).label
          words := device _ ▸ (st.holds x mem).words }
      distinct := st.distinct }

/-- It does not matter in which order words are deposited. -/
theorem perm (st : v.Stores ids ds) (same : ds.Perm ds') : v.Stores ids ds' :=
  { st with
    holds := fun x mem => st.holds x (same.mem_iff.mpr mem)
    distinct := (same.map _).nodup_iff.mp st.distinct }

theorem size_eq (st : v.Stores ids ds) : v.devices.size = ids.length := by
  rw [← st.ids, Inventory.ids, List.length_map, Array.length_toList]

/-- One device changes, with what is deposited on it. -/
theorem setDevice (st : v.Stores ids ds) (inside : i < v.devices.size) {d : Device}
    (sound : d.Sound) (same : d.id = (v.device i).id) (distinct : (ds'.map Deposit.cell).Nodup)
    (here : ∀ x ∈ ds', x.place.owner = i → x.place.handle.device = d.id ∧
      d.buffers.lookup x.place.handle.slot = some x.words)
    (elsewhere : ∀ x ∈ ds', x.place.owner ≠ i → x ∈ ds) : (v.setDevice i d).Stores ids ds' where
  ids := (ids_setDevice inside same).trans st.ids
  sound j lt := by
    rw [device_setDevice inside]
    split
    · exact sound
    · exact st.sound j (by simpa using lt)
  holds x mem := by
    by_cases at_ : x.place.owner = i
    · obtain ⟨label, words⟩ := here x mem at_
      exact
        { inside := by simpa [at_] using inside
          label := by rw [device_setDevice inside, if_pos at_, label]
          words := by rw [device_setDevice inside, if_pos at_, words] }
    · have old := st.holds x (elsewhere x mem at_)
      exact
        { inside := by simpa using old.inside
          label := by rw [device_setDevice inside, if_neg at_, old.label]
          words := by rw [device_setDevice inside, if_neg at_, old.words] }
  distinct := distinct

/-- A new allocation is one deposit more. -/
theorem allocate (st : v.Stores ids ds) (inside : i < v.devices.size) {words : Ciphertext}
    {h : DeviceHandle} {d : Device} (made : (v.device i).allocate words = .ok (h, d)) :
    (v.setDevice i d).Stores ids (⟨⟨i, h⟩, words⟩ :: ds) := by
  obtain ⟨sound, same, label, free, lookup⟩ := (st.sound i inside).allocate made
  have fresh : ∀ x ∈ ds, x.place.owner = i → x.place.handle.slot ≠ h.slot := by
    rintro x mem rfl taken
    have words := (st.holds x mem).words
    rw [taken, free] at words
    contradiction
  refine st.setDevice inside sound same (List.nodup_cons.mpr ⟨?_, st.distinct⟩) ?_ ?_
  · intro mem
    obtain ⟨x, old, cell⟩ := List.mem_map.mp mem
    obtain ⟨owner, slot⟩ := Prod.mk.inj cell
    exact fresh x old owner slot
  · intro x mem at_
    rcases List.mem_cons.mp mem with rfl | old
    · exact ⟨label.trans same.symm, by rw [lookup, if_pos rfl]⟩
    · have held := st.holds x old
      rw [lookup, if_neg (fresh x old at_), ← at_]
      exact ⟨by rw [held.label, same, at_], held.words⟩
  · intro x mem apart
    rcases List.mem_cons.mp mem with rfl | old
    · exact absurd rfl apart
    · exact old

/-- A deposit that is freed is gone, and no other. -/
theorem free {x : Deposit} (st : v.Stores ids (x :: ds)) : (v.free x.place).Stores ids ds := by
  have held := st.holds x List.mem_cons_self
  obtain ⟨fresh, distinct⟩ := List.nodup_cons.mp st.distinct
  obtain ⟨sound, same, lookup⟩ := (st.sound _ held.inside).free x.place.handle
  refine st.setDevice held.inside sound same distinct ?_ fun y mem _ => List.mem_cons_of_mem _ mem
  intro y mem at_
  have old := st.holds y (List.mem_cons_of_mem _ mem)
  have apart : y.place.handle.slot ≠ x.place.handle.slot := fun slot =>
    fresh (List.mem_map.mpr ⟨y, mem, Prod.ext at_ slot⟩)
  rw [lookup _ apart, same, ← at_]
  exact ⟨old.label, old.words⟩

/-- What is deposited is what is downloaded. -/
theorem download (st : v.Stores ids ds) {x : Deposit} (mem : x ∈ ds) :
    (v.download x.place).1 = .ok x.words ∧ (v.download x.place).2.devices = v.devices := by
  have held := st.holds x mem
  have read : (v.device x.place.owner).download x.place.handle = .ok x.words := by
    simp [Device.download, Device.read, (st.sound _ held.inside).inOrder, held.words]
  simp [Inventory.download, read, count]

/-- A buffer that stands for words by what is deposited is brought to the host as these words. -/
theorem toHost (st : v.Stores ids ds) {b : Buffer} {x : Value} {own : List Deposit}
    (stands : b.payload.Stands x own) (there : own ⊆ ds) :
    (v.toHost b).1 = .ok x ∧ (v.toHost b).2.devices = v.devices := by
  unfold Inventory.toHost
  generalize b.payload = payload at stands
  cases stands with
  | host v => exact ⟨rfl, rfl⟩
  | device place words =>
      obtain ⟨words, same⟩ := st.download (there List.mem_cons_self)
      exact ⟨by simp [words, Except.map], same⟩

end Stores

/-! ## one operation -/

/-- What a job may rely on between its sections: that its own deposits are on the devices, and those that
are lent to it. -/
def Ready (ids : List DeviceId) (lent own : List Deposit) (v : Inventory) : Prop :=
  ∃ rest, v.Stores ids (own ++ rest) ∧ lent ⊆ rest

/-- A section touches no deposits but those of its job. -/
def Trades (ids : List DeviceId) (own own' : List Deposit) (v v' : Inventory) : Prop :=
  ∀ rest, v.Stores ids (own ++ rest) → v'.Stores ids (own' ++ rest)

theorem Trades.same (ids : List DeviceId) (own : List Deposit) (same : v'.devices = v.devices) :
    Trades ids own own v v' := fun _ st => st.congr same

/-- A handle on a device is that of an allocation with some words, unless devices share a number. -/
def Staged (ids : List DeviceId) (lent own : List Deposit) (i : Nat) (words : Ciphertext)
    (h : DeviceHandle) : Prop :=
  ids.Nodup → (⟨⟨i, h⟩, words⟩ : Deposit) ∈ own ++ lent

theorem Staged.mono {lent own own' : List Deposit} {words : Ciphertext} {h : DeviceHandle}
    (staged : Staged ids lent own i words h) (more : own ⊆ own') : Staged ids lent own' i words h :=
  by
  intro apart
  rcases List.mem_append.mp (staged apart) with mem | mem
  · exact List.mem_append_left _ (more mem)
  · exact List.mem_append_right _ mem

/-- The result of an operation on a device that was handed some words in place of those of its inputs:
the same, unless devices share a number. -/
def Computes (ids : List DeviceId) (op : Operation) (words : List Ciphertext) (keys : OperationKeys)
    (nonce : UInt64) (ct : Ciphertext) : Prop :=
  ∃ given, (ids.Nodup → given = words) ∧ Primitive.run op given keys nonce = .ok ct

end Inventory

/-- An operation did not crash: it has a result, or an error. -/
def Outcome.Settles {ε α : Type} (good : α → Prop) (bad : Prop) : Outcome ε α → Prop
  | .done a => good a
  | .failed _ => bad
  | .crashed _ => False

namespace Inventory

section Sections

variable {ids : List DeviceId} {lent own : List Deposit} {i : Nat}

/-- The devices in use are there. -/
theorem Ready.inside {v : Inventory} (ready : Ready ids lent own v) (inside : i < ids.length) :
    i < v.devices.size := by
  obtain ⟨rest, st, -⟩ := ready
  rw [st.size_eq]
  exact inside

/-- What a job has in hand or was lent is on the devices. -/
theorem Ready.exists_stores {v : Inventory} (ready : Ready ids lent own v) :
    ∃ ds, v.Stores ids ds ∧ ∀ x ∈ own ++ lent, x ∈ ds := by
  obtain ⟨rest, st, there⟩ := ready
  refine ⟨own ++ rest, st, fun x mem => ?_⟩
  rcases List.mem_append.mp mem with mem | mem
  · exact List.mem_append_left _ mem
  · exact List.mem_append_right _ (there mem)

/-- A device that is selected is there. -/
theorem lt_of_select {v : Inventory} (h : v.select.1 = .ok i) : i < v.devices.size := by
  unfold select at h
  split at h
  · contradiction
  · rename_i some_
    split at h
    · obtain rfl := Except.ok.inj h
      exact Nat.mod_lt _ (Nat.pos_of_ne_zero fun none => some_ (by simp [Array.isEmpty, none]))
    · split at h
      · rename_i found
        obtain rfl := Except.ok.inj h
        refine List.mem_range.mp ((KeyCache.eq_or_mem_of_foldl (fun best j => ?_) found).resolve_left
          nofun)
        cases best with
        | none => exact .inr rfl
        | some b =>
            by_cases light : lighter (v.device j) (v.device b) = true
            · exact .inr (if_pos light)
            · exact .inl (if_neg light)
      · contradiction

theorem devices_select (v : Inventory) : v.select.2.devices = v.devices := by
  unfold select
  split
  · rfl
  · split
    · rfl
    · split <;> rfl

theorem tracks_select :
    Job.Tracks (Ready ids lent) (Trades ids)
      (fun own' selected => own' = own ∧ ∀ i, selected = .ok i → i < ids.length) own
      (Job.atomic select) := by
  refine .atomic fun v ready => ⟨own, .same ids own v.devices_select, rfl, fun i selected => ?_⟩
  obtain ⟨ds, st, -⟩ := ready.exists_stores
  rw [← st.size_eq]
  exact lt_of_select selected

/-- A section made an allocation of some words on a device, or was refused and left the devices as they
were. -/
def Allocates (i : Nat) (words : Ciphertext) (v : Inventory)
    (made : Except DeviceError DeviceHandle × Inventory) : Prop :=
  Settles (fun h => ∃ d, (v.device i).allocate words = .ok (h, d) ∧
      made.2.devices = (v.setDevice i d).devices)
    (fun _ => made.2.devices = v.devices) made.1

theorem allocates_upload (v : Inventory) (i : Nat) (words : Ciphertext) :
    Allocates i words v (v.upload i words) := by
  simp only [Inventory.upload, Device.upload]
  cases (v.device i).faulted with
  | true => exact rfl
  | false =>
      simp only [Bool.false_eq_true, if_false]
      cases made : (v.device i).allocate words with
      | error err => exact rfl
      | ok out => exact ⟨out.2, made, rfl⟩

theorem allocates_keepOutput (v : Inventory) (i : Nat) (words : Ciphertext) :
    Allocates i words v (v.keepOutput i words) := by
  simp only [Inventory.keepOutput]
  cases made : (v.device i).allocate words with
  | error err => exact rfl
  | ok out => exact ⟨out.2, made, rfl⟩

/-- A section that makes an allocation, or is refused. -/
theorem tracks_allocation {act : Inventory → Except DeviceError DeviceHandle × Inventory}
    {words : Ciphertext} (inside : i < ids.length) (allocates : ∀ v, Allocates i words v (act v)) :
    Job.Tracks (Ready ids lent) (Trades ids)
      (fun own' => Settles (fun h => own' = own ++ [⟨⟨i, h⟩, words⟩]) fun _ => own' = own) own
      (Job.atomic act) := by
  refine .atomic fun v ready => ?_
  have here := ready.inside inside
  have allocates := allocates v
  unfold Allocates at allocates
  cases result : (act v).1 with
  | error err =>
      rw [result] at allocates
      exact ⟨own, .same ids own allocates, rfl⟩
  | ok h =>
      rw [result] at allocates
      obtain ⟨d, made, devices⟩ := allocates
      refine ⟨own ++ [Deposit.mk ⟨i, h⟩ words], fun rest st => ?_, rfl⟩
      refine ((st.allocate here made).congr devices).perm ?_
      rw [List.append_assoc]
      exact List.perm_middle.symm

/-- What is deposited at hand is what is downloaded. -/
theorem tracks_download {x : Deposit} (mem : x ∈ own ++ lent) :
    Job.Tracks (Ready ids lent) (Trades ids) (fun own' r => own' = own ∧ r = .ok x.words) own
      (Job.atomic (·.download x.place)) := by
  refine .atomic fun v ready => ?_
  obtain ⟨ds, st, there⟩ := ready.exists_stores
  obtain ⟨words, same⟩ := st.download (there x mem)
  exact ⟨own, .same ids own same, rfl, words⟩

/-- A deposit in hand is freed. -/
theorem tracks_free {x : Deposit} :
    Job.Tracks (Ready ids lent) (Trades ids) (fun own' _ => own' = own) (x :: own)
      (Job.change (·.free x.place)) :=
  .change fun _ _ => ⟨own, fun _ st => st.free, rfl⟩

/-! ### inputs -/

/-- What became of one input: a deposit in hand if it was moved, and nothing otherwise. -/
def StagedIn (ids : List DeviceId) (lent own : List Deposit) (i : Nat) (words : Ciphertext)
    (own' : List Deposit) (r : DeviceHandle × Bool) : Prop :=
  own' = own ++ (if r.2 then [⟨⟨i, r.1⟩, words⟩] else []) ∧ Staged ids lent own' i words r.1

/-- Words are moved to a device. -/
theorem tracks_moveIn (inside : i < ids.length) (words : Ciphertext) :
    Job.Tracks (Ready ids lent) (Trades ids)
      (fun own' => Settles (StagedIn ids lent own i words own') fun _ => own' = own) own
      (do
        let h ← Job.atomic (·.upload i words)
        return h.map (·, true) : Job Inventory (Except DeviceError (DeviceHandle × Bool))) := by
  refine .bind (tracks_allocation inside (allocates_upload · i words)) fun own' r settled => ?_
  cases r with
  | error err => exact settled
  | ok h =>
      obtain rfl : own' = own ++ [Deposit.mk ⟨i, h⟩ words] := settled
      exact ⟨rfl, fun _ => by simp⟩

/-- An input is brought to a device, where it is not taken as it is. -/
theorem tracks_stage (inside : i < ids.length) {b : Buffer} {words : Ciphertext} {ds : List Deposit}
    (stands : b.payload.Stands (.ciphertext words) ds) (there : ds ⊆ lent) :
    Job.Tracks (Ready ids lent) (Trades ids)
      (fun own' => Settles (StagedIn ids lent own i words own') fun _ => own' = own) own
      (stage i b) := by
  unfold stage
  generalize b.payload = payload at stands
  generalize supplied : Value.ciphertext words = value at stands
  cases stands with
  | host v =>
      subst supplied
      exact tracks_moveIn inside words
  | device place words' =>
      obtain rfl := Value.ciphertext.inj supplied
      have mem : (⟨place, words⟩ : Deposit) ∈ own ++ lent :=
        List.mem_append_right _ (there List.mem_cons_self)
      refine .bind (P := fun own' same => own' = own ∧
        (same = true → Staged ids lent own i words place.handle)) (.look fun v ready => ?_) ?_
      · refine ⟨.same ids own rfl, rfl, fun same apart => ?_⟩
        obtain ⟨ds, st, known⟩ := ready.exists_stores
        have held := st.holds _ (known _ mem)
        have owner : place.owner = i := by
          refine eq_of_id (st.ids ▸ apart) held.inside (ready.inside inside) ?_
          rw [← held.label]
          simpa using same
        rwa [← owner]
      · rintro own' same ⟨rfl, staged⟩
        by_cases here : same = true
        · rw [if_pos here]
          exact ⟨by simp, staged here⟩
        · rw [if_neg here]
          refine .bind (tracks_download mem) ?_
          rintro own' r ⟨rfl, rfl⟩
          exact tracks_moveIn inside words

/-- All inputs are brought to a device. -/
theorem tracks_stageAll (inside : i < ids.length) {bs : List Buffer} {words done : List Ciphertext}
    {handles moved : List DeviceHandle}
    (stands : List.Forall₂ (fun b w => ∃ ds, b.payload.Stands (.ciphertext w) ds ∧ ds ⊆ lent) bs
      words)
    (staged : List.Forall₂ (Staged ids lent own i) done handles.reverse)
    (places : own.map Deposit.place = moved.reverse.map (⟨i, ·⟩)) :
    Job.Tracks (Ready ids lent) (Trades ids)
      (fun own' r => own'.map Deposit.place = r.2.reverse.map (⟨i, ·⟩) ∧
        ∀ hs, r.1 = .ok hs → List.Forall₂ (Staged ids lent own' i) (done ++ words) hs) own
      (stageAll i handles moved bs) := by
  induction stands generalizing own done handles moved with
  | nil =>
      refine ⟨places, fun hs same => ?_⟩
      obtain rfl := Except.ok.inj same
      rwa [List.append_nil]
  | @cons b w bs words first rest ih =>
      obtain ⟨ds, stands, there⟩ := first
      refine .bind (tracks_stage inside stands there) fun own' r settled => ?_
      cases r with
      | error err =>
          obtain rfl : own' = own := settled
          exact ⟨places, nofun⟩
      | ok r =>
          obtain ⟨h, fresh⟩ := r
          obtain ⟨own_eq, here⟩ := settled
          have more : own ⊆ own' := own_eq ▸ List.subset_append_left _ _
          have staged' : List.Forall₂ (Staged ids lent own' i) (done ++ [w]) (h :: handles).reverse := by
            rw [List.reverse_cons]
            exact List.rel_append (staged.imp fun _ _ old => old.mono more) (.cons here .nil)
          have places' : own'.map Deposit.place =
              (if fresh then h :: moved else moved).reverse.map (⟨i, ·⟩) := by
            rw [own_eq, List.map_append, places]
            cases fresh <;> simp
          refine (ih staged' places').mono fun own'' r both => ?_
          simpa using both

/-- What was moved is freed, and nothing else, as long as a deposit in hand can be freed. -/
theorem tracks_unstage_of {pre : List Deposit → Inventory → Prop}
    {rel : List Deposit → List Deposit → Inventory → Inventory → Prop}
    (free : ∀ (x : Deposit) (front back : List Deposit) (v : Inventory),
      rel (front ++ x :: back) (front ++ back) v (v.free x.place))
    {moved : List DeviceHandle} {ms outs : List Deposit}
    (places : (ms.map Deposit.place).Perm (moved.map (⟨i, ·⟩))) :
    Job.Tracks pre rel (fun own' _ => own' = outs) (ms ++ outs) (unstage i moved) := by
  induction moved generalizing ms with
  | nil =>
      obtain rfl : ms = [] := by simpa using places
      exact rfl
  | cons h rest ih =>
      obtain ⟨x, mem, place⟩ : ∃ x ∈ ms, x.place = ⟨i, h⟩ :=
        List.mem_map.mp (places.mem_iff.mpr (by simp))
      obtain ⟨front, back, rfl⟩ := List.append_of_mem mem
      have others : ((front ++ back).map Deposit.place).Perm (rest.map (⟨i, ·⟩)) := by
        refine List.Perm.cons_inv (a := x.place) ?_
        rw [← List.map_cons]
        refine (List.perm_middle.symm.map _).trans ?_
        rwa [place, ← List.map_cons]
      refine .bind (P := fun own' _ => own' = front ++ back ++ outs) ?_ ?_
      · refine .change fun v _ => ⟨_, ?_, rfl⟩
        rw [← place]
        simpa using free x front (back ++ outs) v
      · rintro own' - rfl
        exact ih others

theorem tracks_unstage {moved : List DeviceHandle} {ms outs : List Deposit}
    (places : (ms.map Deposit.place).Perm (moved.map (⟨i, ·⟩))) :
    Job.Tracks (Ready ids lent) (Trades ids) (fun own' _ => own' = outs) (ms ++ outs)
      (unstage i moved) := by
  refine tracks_unstage_of (fun x front back v rest st => Stores.free (st.perm ?_)) places
  simp only [List.append_assoc, List.cons_append]
  exact List.perm_middle

/-! ### the operation -/

/-- Handles of allocations with some words are read as these words. -/
theorem Stores.readAll {v : Inventory} {ds : List Deposit} (st : v.Stores ids ds)
    {words : List Ciphertext} {handles : List DeviceHandle}
    (there : List.Forall₂ (fun w h => (⟨⟨i, h⟩, w⟩ : Deposit) ∈ ds) words handles) :
    (v.device i).readAll handles = .ok words := by
  induction there with
  | nil => rfl
  | @cons w h words handles first rest ih =>
      have read : (v.device i).read h = .ok w := by
        simp [Device.read, (st.holds _ first).words]
      simp only [Device.readAll, read, ih]
      rfl

/-- It does not matter whether an operation is recorded before it is run. -/
theorem tracks_recorded {α : Type} {recorded : Bool} {calls : List PrimitiveCall}
    {j : Job Inventory α} {good : List Deposit → α → Prop}
    (h : Job.Tracks (Ready ids lent) (Trades ids) good own j) :
    Job.Tracks (Ready ids lent) (Trades ids) good own
      (if recorded then Job.tell calls >>= fun _ => j else j) := by
  split
  · refine .bind (P := fun own' _ => own' = own) (.tell rfl) ?_
    rintro own' - rfl
    exact h
  · exact h

/-- An operation on handles of its inputs makes a deposit of its result. -/
theorem tracks_compute (inside : i < ids.length) (op : Operation) {words : List Ciphertext}
    {handles : List DeviceHandle} (keys : OperationKeys) (nonce : UInt64)
    (staged : List.Forall₂ (Staged ids lent own i) words handles) :
    Job.Tracks (Ready ids lent) (Trades ids)
      (fun own' => Outcome.Settles
        (fun h => ∃ ct, own' = own ++ [⟨⟨i, h⟩, ct⟩] ∧ Computes ids op words keys nonce ct)
        (own' = own)) own
      (compute i op handles keys nonce) := by
  refine .bind (P := fun own' r => own' = own ∧ r.2.Sound ∧
    (ids.Nodup → r.1 = .ok words)) (.look fun v ready => ?_) ?_
  · obtain ⟨ds, st, there⟩ := ready.exists_stores
    have sound := st.sound i (ready.inside inside)
    refine ⟨.same ids own rfl, rfl, sound, fun apart => ?_⟩
    have read := st.readAll (staged.imp fun _ _ known => there _ (known apart))
    simp [Device.inputsOf, sound.inOrder, read]
  · rintro own' ⟨inputs, d⟩ ⟨rfl, sound, known⟩
    cases inputs with
    | error err => exact rfl
    | ok given =>
        have run : d.primitives.run op given keys nonce = .ofExcept (Primitive.run op given keys nonce) :=
          by rw [sound.reference]; rfl
        dsimp only
        rw [run]
        refine tracks_recorded ?_
        cases computed : Primitive.run op given keys nonce with
        | error err => exact rfl
        | ok ct =>
            refine .bind (tracks_allocation inside (allocates_keepOutput · i ct)) fun own'' r settled => ?_
            cases r with
            | error err => exact settled
            | ok h => exact ⟨ct, settled, given, fun apart => Except.ok.inj (known apart), computed⟩

/-- An output stays where it is, or is brought back and freed. -/
theorem tracks_settle {h : DeviceHandle} {ct : Ciphertext} (keep : Bool) :
    Job.Tracks (Ready ids lent) (Trades ids)
      (fun own' => Outcome.Settles
        (fun out => out.1.Stands (.ciphertext ct) own' ∧
          ∀ place, out.1 = .device place → keep = true) (own' = []))
      [⟨⟨i, h⟩, ct⟩] (settle i h keep) := by
  refine .bind (P := fun own' _ => own' = [Deposit.mk ⟨i, h⟩ ct])
    (.look fun v _ => ⟨.same ids _ rfl, rfl⟩) ?_
  rintro own' id rfl
  by_cases kept : keep = true
  · rw [if_pos kept]
    exact ⟨.device ⟨i, h⟩ ct, fun _ _ => kept⟩
  · rw [if_neg kept]
    refine .bind (tracks_download (x := ⟨⟨i, h⟩, ct⟩) (by simp)) ?_
    rintro own' r ⟨rfl, rfl⟩
    refine .bind tracks_free ?_
    rintro own' - rfl
    exact ⟨.host _, nofun⟩

/-- An operation that fails leaves nothing behind. One that succeeds leaves its result alone, on its
device if it was to be kept there, or on the host. -/
theorem tracks_operate (op : Operation) {inputs : List Buffer} {words : List Ciphertext}
    (keys : OperationKeys) (nonce : UInt64) (keep : Bool)
    (stands : List.Forall₂ (fun b w => ∃ ds, b.payload.Stands (.ciphertext w) ds ∧ ds ⊆ lent) inputs
      words) :
    Job.Tracks (Ready ids lent) (Trades ids)
      (fun own' => Outcome.Settles
        (fun out => ∃ ct, out.1.Stands (.ciphertext ct) own' ∧
          (∀ place, out.1 = .device place → keep = true) ∧ Computes ids op words keys nonce ct)
        (own' = [])) []
      (operate op inputs keys nonce keep) := by
  refine .bind tracks_select ?_
  rintro own' selected ⟨rfl, inside⟩
  cases selected with
  | error err => exact rfl
  | ok i =>
      have inside := inside i rfl
      refine .bind (tracks_stageAll inside stands .nil rfl) ?_
      rintro own ⟨staged, moved⟩ ⟨places, handles⟩
      have places' : (own.map Deposit.place).Perm (moved.map (⟨i, ·⟩)) := by
        rw [places]
        exact (List.reverse_perm moved).map _
      -- what was moved in is freed, and with it everything unless there is an output
      have cleared : Job.Tracks (Ready ids lent) (Trades ids) (fun own' _ => own' = []) (own ++ [])
          (unstage i moved) := tracks_unstage places'
      rw [List.append_nil] at cleared
      cases staged with
      | error err => exact .bind cleared fun _ _ none => none
      | ok hs =>
          refine .bind (tracks_compute inside op keys nonce (handles hs rfl)) ?_
          intro own' computed settled
          cases computed with
          | failed err =>
              obtain rfl : own' = own := settled
              exact .bind cleared fun _ _ none => none
          | crashed text => exact settled.elim
          | done h =>
              obtain ⟨ct, rfl, computes⟩ := settled
              refine .bind (tracks_unstage places') ?_
              rintro own' - rfl
              refine (tracks_settle keep).mono fun own' out settled => ?_
              cases out with
              | done out => exact ⟨ct, settled.1, settled.2, computes⟩
              | failed err => exact settled
              | crashed text => exact settled

/-! ### no waiting -/

theorem direct_stage (i : Nat) (b : Buffer) : (stage i b).Direct := by
  have moveIn (words : Ciphertext) : (do
      let h ← Job.atomic (·.upload i words)
      return h.map (·, true) :
        Job Inventory (Except DeviceError (DeviceHandle × Bool))).Direct :=
    .bind .atomic fun _ => .pure
  unfold stage
  cases b.payload with
  | host v =>
      cases v with
      | ciphertext words => exact moveIn words
      | _ => exact .look
  | device r =>
      refine .bind .look fun same => ?_
      by_cases here : same = true
      · rw [if_pos here]
        exact .pure
      · rw [if_neg here]
        refine .bind .atomic fun words => ?_
        cases words with
        | error err => exact .pure
        | ok words => exact moveIn words

theorem direct_stageAll (i : Nat) (handles moved : List DeviceHandle) (bs : List Buffer) :
    (stageAll i handles moved bs).Direct := by
  induction bs generalizing handles moved with
  | nil => exact .pure
  | cons b rest ih =>
      refine .bind (direct_stage i b) fun r => ?_
      cases r with
      | error err => exact .pure
      | ok r => exact ih _ _

theorem direct_unstage (i : Nat) (moved : List DeviceHandle) : (unstage i moved).Direct := by
  induction moved with
  | nil => exact .pure
  | cons h rest ih => exact .bind .change fun _ => ih

theorem direct_compute (i : Nat) (op : Operation) (handles : List DeviceHandle)
    (keys : OperationKeys) (nonce : UInt64) : (compute i op handles keys nonce).Direct := by
  refine .bind .look fun ⟨inputs, d⟩ => ?_
  cases inputs with
  | error err => exact .pure
  | ok given =>
      dsimp only
      split
      all_goals
        try refine .bind .tell fun _ => ?_
        cases d.primitives.run op given keys nonce with
        | crashed text => exact .pure
        | failed err => exact .pure
        | done words => exact .bind .atomic fun _ => .pure

/-- An operation does not wait for other jobs. -/
theorem direct_operate (op : Operation) (inputs : List Buffer) (keys : OperationKeys)
    (nonce : UInt64) (keep : Bool) : (operate op inputs keys nonce keep).Direct := by
  refine .bind .atomic fun selected => ?_
  cases selected with
  | error err => exact .pure
  | ok i =>
      refine .bind (direct_stageAll i [] [] inputs) fun ⟨staged, moved⟩ => ?_
      cases staged with
      | error err => exact .bind (direct_unstage i moved) fun _ => .pure
      | ok handles =>
          refine .bind (direct_compute i op handles keys nonce) fun computed => ?_
          cases computed with
          | failed err => exact .bind (direct_unstage i moved) fun _ => .pure
          | crashed text => exact .bind (direct_unstage i moved) fun _ => .pure
          | done h =>
              refine .bind (direct_unstage i moved) fun _ => .bind .look fun id => ?_
              split
              · exact .pure
              · exact .bind .atomic fun _ => .bind .change fun _ => .pure

end Sections

end Inventory

end HomCircuit
