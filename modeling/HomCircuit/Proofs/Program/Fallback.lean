import HomCircuit.Proofs.Program.Agreement
import HomCircuit.Proofs.Schedule.Devices

/-!
# HomCircuit.Proofs.Program.Fallback

A program gives the same messages with devices as on the processor alone, however many devices there
are, whatever fits on them, and in every schedule.

```
processor                 ciphertexts   ──decrypt──▸   messages
devices and processor     others        ──decrypt──▸   the same, while phases stay near them
```

The ciphertexts differ, since the nonce of a node on a device is made of the inputs that are on the host.
What they decrypt to does not. Both contexts fail in the same calls, and no device is ever the reason.

* `Program.Derives`, `Program.Means` — the ciphertexts that a value may have, and its message;
* `Program.Checked.picks_delivered` — one call in a context with devices;
* `Program.devices_agree` — the two contexts agree.
-/

namespace HomCircuit

/-! ## devices of a context -/

/-- What holds of emulated devices and of those that a context is given holds of all its devices. -/
theorem Context.forall_device {P : Device → Prop} {o : ContextOptions} {ps : Primitives}
    {devices : List Device} {v : Inventory} (made : inventory? o ps devices = some v)
    (emulated : ∀ d ∈ emulatedDevices o ps, P d) (given : ∀ d ∈ devices, P d) :
    ∀ i < v.devices.size, P (v.device i) := by
  unfold inventory? at made
  split at made
  · have all : ∀ d ∈ if devices.isEmpty then emulatedDevices o ps else devices, P d := by
      split
      · exact emulated
      · exact given
    generalize (if devices.isEmpty then emulatedDevices o ps else devices) = chosen at made all
    obtain rfl := Option.some.inj made
    intro i inside
    have lt : i < chosen.length := by simpa using inside
    simpa [Inventory.device, Array.getD, lt] using all _ (List.getElem_mem lt)
  · contradiction

/-- A context starts with devices in order, if those that it is given are. -/
theorem Context.sound_inventory? {o : ContextOptions} {ps : Primitives} {devices : List Device}
    (accelerator : o.mode = .accelerator) (reference : ps = .reference)
    (given : ∀ d ∈ devices, d.Sound) : ∃ v, inventory? o ps devices = some v ∧ v.Sound := by
  obtain ⟨v, made⟩ : ∃ v, inventory? o ps devices = some v := by
    unfold inventory?
    rw [if_pos accelerator]
    exact ⟨_, rfl⟩
  refine ⟨v, made, forall_device made (fun d mem => ?_) given⟩
  obtain ⟨k, -, rfl⟩ := List.mem_map.mp mem
  exact ⟨rfl, reference, nofun⟩

/-! ## plans -/

/-- What is left out of a call depends on what is requested and on the elision alone. -/
theorem Plan.live_eq {g : Graph} {o o' : CallOptions} {accelerating accelerating' : Bool}
    {plan plan' : Plan} (h : Plan.prepare g o accelerating = .ok plan)
    (h' : Plan.prepare g o' accelerating' = .ok plan') (requested : o'.requested = o.requested)
    (elide : o'.elide = o.elide) : plan'.live = plan.live := by
  simp only [Plan.prepare] at h h'
  rw [requested, elide] at h'
  cases found : Plan.resolve g [] o.requested with
  | error err => simp [found, Except.map] at h
  | ok slots =>
      simp only [found, Except.map, Except.ok.injEq] at h h'
      rw [← h, ← h']

/-- A call whose nodes do not fail for devices does not tell of them. -/
theorem Answer.Keeps.not_device {e : Environment} {p : Plan} {C : Conduct e p} {a : Answer}
    {ids : List ValueId} {cause : DeviceError} (kept : a.Keeps C)
    (blame : ∀ i, p.isLive i = true → ∀ err, C.bad i err → err.rootCause ≠ .device cause)
    {err : RunError} (failed : a.1.bind (Program.pick · ids) = .error err) :
    err.rootCause ≠ .device cause := by
  obtain ⟨-, told⟩ := kept
  cases result : a.1 with
  | error err' =>
      rw [result] at told failed
      obtain rfl : err' = err := Except.error.inj failed
      obtain ⟨f, skipped, rfl | ⟨i, alive, bad, -⟩, rfl⟩ := told
      · exact nofun
      · exact blame i alive f.error bad
  | ok values =>
      rw [result] at failed
      obtain ⟨v, rfl⟩ := Program.pick_error failed
      exact nofun

namespace Program

variable {p : Program} {inputs : List Value} {o o' : CallChoice} {c d : Context}

/-- The ciphertexts that the values of a program may have in a context with devices, under the keys of a
ring. -/
def Derives (p : Program) (inputs : List Value) (c : Context) (ring : Partition → KeySet) :
    ValueId → Ciphertext → Prop :=
  p.graph.Derives (c.environment p.partitions default) (p.supply inputs) ring

/-- The messages of the values of a program, under the keys of a ring. -/
def Means (p : Program) (inputs : List Value) (c : Context) (ring : Partition → KeySet) :
    ValueId → UInt64 → Prop :=
  p.graph.Means (c.environment p.partitions default) (p.supply inputs) ring

/-- A call is refused for what it asks for, whatever else is chosen for it. -/
theorem refuses_congr (outputs : o'.outputs = o.outputs) :
    p.Refuses inputs o' d ↔ p.Refuses inputs o c := by
  have same : (p.settings o' d).requested = (p.settings o c).requested := by
    simp only [settings, wanted, outputs]
  unfold Refuses Plan.prepare
  rw [same]
  cases Plan.resolve p.graph [] (p.settings o c).requested <;> simp [Except.map]

/-- The calls of two contexts that leave out the same nodes have the same misfits. -/
theorem hasMisfit_congr {plan plan' : Plan} (graph : plan'.graph = plan.graph)
    (live : plan'.live = plan.live) : p.HasMisfit plan' ↔ p.HasMisfit plan := by
  simp only [HasMisfit, Plan.isLive, graph, live]

section Devices

variable {plan : Plan} {s : CallOptions} {t : CancelToken} {cancellation : Cancellation}
  {workers : Nat} {a : Answer} {accelerating : Bool} {v : Inventory}

/-- A planned call in a context with devices has the processor to fall back on. -/
theorem Checked.assisted (checked : p.Checked) (accelerator : d.mode = .accelerator)
    (reference : d.primitives = .reference) (fallback : d.options.cpuFallback = true)
    {ring : Partition → KeySet} (isOf : ∀ q ∈ p.partitions.partitions, (ring q).IsOf q)
    (prepared : Plan.prepare p.graph s accelerating = .ok plan) (home : s.assignment = []) :
    Assisted (d.environment p.partitions t) plan ring := by
  obtain ⟨sound, graph, options⟩ := Plan.sound_of_prepare checked.wired prepared
  exact { sound, covers := graph ▸ checked.covers rfl, isOf, accelerator, reference, fallback
          home := by rw [options, home] }

/-- A context whose devices are in order is equipped for a call. -/
theorem equips (devices : d.resources.inventory = some v) (order : v.Sound)
    {ring : Partition → KeySet}
    (keys : d.resources.keys.Answers p.partitions d.options.seed fun q k => k = ring q) :
    (d.environment p.partitions t).Equips ring v.ids [] { d.resources with cancellation } :=
  ⟨keys, v, devices, order.stores⟩

/-- With devices, the call by the clock is one that may happen. -/
theorem Checked.mayCall_devices (checked : p.Checked) (accelerator : d.mode = .accelerator)
    (reference : d.primitives = .reference) (fallback : d.options.cpuFallback = true)
    (devices : d.resources.inventory = some v) (order : v.Sound) {ring : Partition → KeySet}
    (isOf : ∀ q ∈ p.partitions.partitions, (ring q).IsOf q)
    (keys : d.resources.keys.Answers p.partitions d.options.seed fun q k => k = ring q)
    (home : o.assignment = []) : p.MayCall inputs o d (p.callWith inputs o d) := by
  refine mayCall_of_returns fun plan t cancellation workers prepared => ?_
  have assisted : Assisted (d.environment p.partitions t) plan ring :=
    checked.assisted accelerator reference fallback isOf prepared home
  exact Plan.execute_mayReturn_of_neverWaits (C := assisted.conduct (p.supply inputs) v.ids)
    assisted.sound assisted.neverWaits (Environment.duration_reference reference)
    (equips devices order keys) (assisted.admits _ _) workers

/-- A planned call in a context with devices has a node that failed exactly for a misfit, never tells of
a device, and picks ciphertexts that its values derive, if its devices have numbers of their own. -/
theorem Checked.picks_delivered (ids : List ValueId) (checked : p.Checked)
    (accelerator : d.mode = .accelerator)
    (reference : d.primitives = .reference) (fallback : d.options.cpuFallback = true)
    (devices : d.resources.inventory = some v) (order : v.Sound) {ring : Partition → KeySet}
    (isOf : ∀ q ∈ p.partitions.partitions, (ring q).IsOf q)
    (keys : d.resources.keys.Answers p.partitions d.options.seed fun q k => k = ring q)
    (accepted : List.Forall₂ (fun input x => p.Accepts input.2 x) p.inputs inputs)
    (prepared : Plan.prepare p.graph s accelerating = .ok plan) (home : s.assignment = [])
    (returns : plan.MayReturn (d.environment p.partitions t) workers (p.supply inputs)
      { d.resources with cancellation } a) :
    (¬WasCancelled (a.1.bind (pick · ids)) →
      (NodeFailed (a.1.bind (pick · ids)) ↔ p.HasMisfit plan)) ∧
    (∀ err cause, a.1.bind (pick · ids) = .error err → err.rootCause ≠ .device cause) ∧
    (a.2.2.keys.Answers p.partitions d.options.seed fun q k => k = ring q) ∧
    ∀ xs, a.1.bind (pick · ids) = .ok xs →
      List.Forall₂ (fun v' x => ∃ ct, x = .ciphertext ct ∧
        (v.ids.Nodup → p.Derives inputs d ring v' ct)) ids xs := by
  obtain ⟨sound, graph, -⟩ := Plan.sound_of_prepare checked.wired prepared
  let e := d.environment p.partitions t
  have assisted : Assisted e plan ring :=
    checked.assisted accelerator reference fallback isOf prepared home
  have represented (v : ValueId) (id : PartitionId) (q : Partition) (x : Value)
      (known : p.partitions.get? id = some q) (accepts : p.Accepts id x) :
      ∃ y, Run.representation e.mode v q x = .ok y := by
    rw [show e.mode = .accelerator from accelerator, Run.representation_accelerator]
    exact representation_of_accepts known accepts
  obtain ⟨run, bound⟩ := checked.bind_ok (e := e) rfl represented accepted graph
    (Run.initial plan { d.resources with cancellation })
  have kept : a.Keeps (assisted.conduct (p.supply inputs) v.ids) :=
    returns.conducted sound (equips devices order keys) (assisted.admits _ _) bound
  refine ⟨fun uncancelled => kept.picked_failed (fun i alive misfit x => ?_)
    (fun i alive err misfits => ?_) uncancelled, fun err cause failed => ?_, kept.1.keys,
    fun xs ok => ?_⟩
  · rintro ⟨ct, -, delivers⟩
    exact delivers.fits i (sound.live_lt i alive) rfl misfit
  · exact misfits.hasMisfit assisted.covers.valid
  · refine kept.not_device (fun i alive err misfits => ?_) failed
    obtain ⟨table, q, -, -, -, -, rfl⟩ := misfits
    exact nofun
  · refine kept.picked_values sound (R := fun v' x => ∃ ct, x = .ciphertext ct ∧
      (v.ids.Nodup → p.Derives inputs d ring v' ct)) ?_ ok
    rintro slot x ⟨ct, rfl, delivers⟩
    refine ⟨ct, rfl, fun apart => ?_⟩
    rw [Derives, ← graph]
    refine Graph.Derives.congr (e := e) ?_ ?_ (delivers.derived apart) <;> rfl

end Devices

/-! ## messages -/

/-- A value that evaluates means a message below the plaintext modulus of its partition. -/
theorem Checked.exists_means (checked : p.Checked) (processor : c.mode = .cpu)
    {ring : Partition → KeySet} (isOf : ∀ q ∈ p.partitions.partitions, (ring q).IsOf q)
    {v : ValueId} {ct : Ciphertext} (h : p.Evaluates inputs c ring v ct) {slot : Nat}
    (place : p.graph.slot? v = some slot) :
    ∃ m q, p.Means inputs c ring v m ∧
      p.partitions.get? (p.graph.slotPartition slot) = some q ∧ m < q.plaintextModulus := by
  obtain ⟨m, means, q, known, below⟩ :=
    h.means (checked.covers rfl) checked.wired processor isOf slot place
  rw [(Graph.valueAt_of_slot? place).2] at means
  exact ⟨m, q, means, Environment.get?_of_partition known, below⟩

/-- Values that were asked for and evaluate mean messages. -/
theorem Checked.wanted_means (checked : p.Checked) (processor : c.mode = .cpu)
    {ring : Partition → KeySet} (isOf : ∀ q ∈ p.partitions.partitions, (ring q).IsOf q)
    {ids : List ValueId} {xs : List Value} (placed : ∀ v ∈ ids, ∃ slot, p.graph.slot? v = some slot)
    (evaluated : List.Forall₂ (fun v x => ∃ ct, x = .ciphertext ct ∧ p.Evaluates inputs c ring v ct)
      ids xs) :
    ∀ v ∈ ids, ∃ m slot q, p.Means inputs c ring v m ∧ p.graph.slot? v = some slot ∧
      p.partitions.get? (p.graph.slotPartition slot) = some q ∧ m < q.plaintextModulus := by
  intro v mem
  obtain ⟨slot, place⟩ := placed v mem
  obtain ⟨-, ct, -, evaluates⟩ := exists_of_forall₂ evaluated mem
  obtain ⟨m, q, means, known, below⟩ := checked.exists_means processor isOf evaluates place
  exact ⟨m, slot, q, means, place, known, below⟩

/-- The noise of ciphertexts that were returned for some values does not reach the messages next to
those that the values mean. -/
def NearMeant (p : Program) (inputs : List Value) (c : Context) (ring : Partition → KeySet)
    (ids : List ValueId) (xs : List Value) : Prop :=
  ∀ a ∈ ids.zip xs, ∀ ct m, a.2 = .ciphertext ct → p.Means inputs c ring a.1 m →
    p.Near ring a.1 ct m

/-- Ciphertexts near what their values mean decrypt to it. -/
theorem Checked.decryptAll_meant (checked : p.Checked) {ring : Partition → KeySet}
    (isOf : ∀ q ∈ p.partitions.partitions, (ring q).IsOf q) {ids : List ValueId} {xs : List Value}
    (told : ∀ v ∈ ids, ∃ m slot q, p.Means inputs c ring v m ∧ p.graph.slot? v = some slot ∧
      p.partitions.get? (p.graph.slotPartition slot) = some q ∧ m < q.plaintextModulus)
    (held : List.Forall₂ (fun _ x => ∃ ct, x = .ciphertext ct) ids xs)
    (near : p.NearMeant inputs c ring ids xs) {e : Context}
    (keys : e.resources.keys.Answers p.partitions e.options.seed fun q k => k = ring q) :
    ∃ ms, (p.decryptAll (ids.zip xs) e).1 = .ok ms ∧
      List.Forall₂ (p.Means inputs c ring) ids ms := by
  have each : List.Forall₂ (fun v x => ∃ ct m, x = .ciphertext ct ∧ p.Means inputs c ring v m ∧
      p.Near ring v ct m) ids xs := by
    refine List.forall₂_iff_zip.mpr ⟨held.length_eq, fun {v x} mem => ?_⟩
    obtain ⟨ct, rfl⟩ := (List.forall₂_iff_zip.mp held).2 mem
    obtain ⟨m, -, -, means, -⟩ := told v (List.of_mem_zip mem).1
    exact ⟨ct, m, rfl, means, near _ mem ct m rfl means⟩
  have bounded : ∀ v ∈ ids, ∀ m, p.Means inputs c ring v m → ∃ slot q, p.graph.slot? v = some slot ∧
      p.partitions.get? (p.graph.slotPartition slot) = some q ∧ m < q.plaintextModulus := by
    intro v mem m means
    obtain ⟨m', slot, q, means', place, known, below⟩ := told v mem
    obtain rfl := Graph.Means.unique checked.wired means means'
    exact ⟨slot, q, place, known, below⟩
  obtain ⟨ms, c'', decrypted, meant⟩ := checked.decryptAll_near isOf bounded each keys
  exact ⟨ms, by rw [decrypted], meant⟩

/-! ## agreement -/

/-- A loaded program, called with what its inputs accept in two live contexts with the reference
arithmetic and with key managers that hand out the keys of one ring, one on the processor, and one with
any devices in order and the processor to fall back on, fails by a node in both or in neither, unless a
call was cancelled. It never fails for a device. What is returned for a value with devices is a
ciphertext that the value derives, if the devices have numbers of their own. Where both answer, both
decrypt to the messages that are meant while the noise of what is returned does not reach the next
message. -/
theorem devices_agree {artifact : Artifact} (loaded : load artifact = .ok p)
    (live : c.shut = false) (processor : c.mode = .cpu) (reference : c.primitives = .reference)
    (live' : d.shut = false) (accelerator : d.mode = .accelerator)
    (reference' : d.primitives = .reference) (fallback : d.options.cpuFallback = true)
    {v : Inventory} (devices : d.resources.inventory = some v) (order : v.Sound)
    (elide : d.options.elide = c.options.elide) {ring : Partition → KeySet}
    (isOf : ∀ q ∈ p.partitions.partitions, (ring q).IsOf q)
    (keys : c.resources.keys.Answers p.partitions c.options.seed fun q k => k = ring q)
    (keys' : d.resources.keys.Answers p.partitions d.options.seed fun q k => k = ring q)
    (accepted : List.Forall₂ (fun input x => p.Accepts input.2 x) p.inputs inputs)
    (outputs : o'.outputs = o.outputs) (home : o.assignment = []) (home' : o'.assignment = [])
    {r r' : Except RunError (List Value) × Trace × Context} (h : p.MayCall inputs o c r)
    (h' : p.MayCall inputs o' d r') :
    -- both can be called
    p.MayCall inputs o c (p.callWith inputs o c) ∧ p.MayCall inputs o' d (p.callWith inputs o' d) ∧
    -- the same calls fail
    (¬WasCancelled r.1 → ¬WasCancelled r'.1 → (NodeFailed r.1 ↔ NodeFailed r'.1)) ∧
    -- none of them for a device
    (∀ err cause, r'.1 = .error err → err.rootCause ≠ .device cause) ∧
    -- devices and processor hand each other the right words
    (∀ xs', r'.1 = .ok xs' → v.ids.Nodup →
      List.Forall₂ (fun v x => ∃ ct, x = .ciphertext ct ∧ p.Derives inputs d ring v ct) (p.wanted o)
        xs') ∧
    -- where both succeed, they agree on the messages
    ∀ xs xs', r.1 = .ok xs → r'.1 = .ok xs' → p.NearMeant inputs c ring (p.wanted o) xs →
      p.NearMeant inputs c ring (p.wanted o) xs' →
      ∃ messages, List.Forall₂ (p.Means inputs c ring) (p.wanted o) messages ∧
        (p.decryptAll ((p.wanted o).zip xs) r.2.2).1 = .ok messages ∧
        (p.decryptAll ((p.wanted o).zip xs') r'.2.2).1 = .ok messages ∧
        (o.outputs = none → (p.decryptOutputs xs r.2.2).1 = .ok messages ∧
          (p.decryptOutputs xs' r'.2.2).1 = .ok messages) := by
  have checked := checked_of_load loaded
  have wanted : p.wanted o' = p.wanted o := by simp only [Program.wanted, outputs]
  refine ⟨checked.mayCall_processor processor reference keys home,
    checked.mayCall_devices accelerator reference' fallback devices order isOf keys' home', ?_⟩
  by_cases refuses : p.Refuses inputs o c
  · obtain ⟨failed, nothing, -⟩ := (h.declined home live refuses).tells_nothing
    obtain ⟨failed', nothing', blames⟩ :=
      (h'.declined home' live' ((refuses_congr outputs).mpr refuses)).tells_nothing
    exact ⟨fun _ _ => iff_of_false failed failed', blames, fun xs' ok' => absurd ok' (nothing' xs'),
      fun xs _ ok => absurd ok (nothing xs)⟩
  · have refuses' : ¬p.Refuses inputs o' d := fun refused =>
      refuses ((refuses_congr outputs).mp refused)
    obtain ⟨plan, t, cancellation, workers, a, prepared, returns, rfl⟩ :=
      h.planned home live refuses
    obtain ⟨plan', t', cancellation', workers', a', prepared', returns', rfl⟩ :=
      h'.planned home' live' refuses'
    rw [show (decide (c.mode = .accelerator) && c.resources.hasDevices) = false by
      simp [processor]] at prepared
    obtain ⟨fails, keysAfter, picked⟩ := checked.picks_evaluated (p.wanted o) processor reference isOf
      keys accepted prepared home returns
    obtain ⟨fails', blames, keysAfter', picked'⟩ := checked.picks_delivered (p.wanted o) accelerator
      reference' fallback devices order isOf keys' accepted prepared' home' returns'
    obtain ⟨sound, graph, options⟩ := Plan.sound_of_prepare checked.wired prepared
    obtain ⟨-, graph', -⟩ := Plan.sound_of_prepare checked.wired prepared'
    have misfit : p.HasMisfit plan' ↔ p.HasMisfit plan :=
      hasMisfit_congr (graph'.trans graph.symm) (Plan.live_eq prepared prepared' wanted elide)
    rw [wanted]
    refine ⟨fun uncancelled uncancelled' => (fails uncancelled).trans
      (misfit.symm.trans (fails' uncancelled').symm), blames, fun xs' ok' apart => ?_,
      fun xs xs' ok ok' near near' => ?_⟩
    · refine (picked' xs' ok').imp ?_
      rintro v x ⟨ct, same, derives⟩
      exact ⟨ct, same, derives apart⟩
    · obtain ⟨-, evaluated⟩ := picked xs ok
      have delivered := picked' xs' ok'
      have placed : ∀ v ∈ p.wanted o, ∃ slot, p.graph.slot? v = some slot := by
        intro v mem
        have asked : v ∈ plan.options.requested := by rwa [options]
        obtain ⟨found, there, rfl⟩ := List.mem_map.mp (sound.asked v asked)
        exact ⟨found.2, graph ▸ sound.slots found there⟩
      have told := checked.wanted_means processor isOf placed evaluated
      obtain ⟨ms, decrypted, meant⟩ := checked.decryptAll_meant (e := { c with resources := a.2.2 })
        isOf told (evaluated.imp fun v x both => both.imp fun ct both => both.1) near keysAfter
      obtain ⟨ms', decrypted', meant'⟩ := checked.decryptAll_meant
        (e := { d with resources := a'.2.2 }) isOf told
        (delivered.imp fun v x both => both.imp fun ct both => both.1) near' keysAfter'
      obtain rfl : ms = ms' := Graph.eq_of_forall₂
        (meant.imp fun v m means m' means' => Graph.Means.unique checked.wired means means') meant'
      refine ⟨ms, meant, decrypted, decrypted', fun own => ?_⟩
      have all : p.wanted o = p.outputs := by rw [Program.wanted, own, Option.getD_none]
      rw [all] at evaluated delivered decrypted decrypted'
      rw [decryptOutputs_eq evaluated.length_eq.symm, decryptOutputs_eq delivered.length_eq.symm]
      exact ⟨decrypted, decrypted'⟩

end Program

/-! ## a device that is too small -/

namespace Exhaustion

/-- A negation, and the sum of its result and its argument. -/
def artifact : Artifact :=
  { name := "exhaustion"
    partitions := [{ name := "P", lweDim := 1, glweDim := 1, polySize := 4 }]
    inputs := [{ value := 0, partition := "P" }]
    outputs := [2]
    nodes :=
      [{ id := 0, op := .neg, inputs := [0], output := 1, partition := "P" },
        { id := 1, op := .add, inputs := [1, 0], output := 2, partition := "P" }] }

def partitions : Registry := (Program.registerAll .empty artifact.partitions).toOption.getD default

def nodes : List Node := (artifact.nodes.mapM (Program.node partitions)).toOption.getD default

def arguments : List (ValueId × PartitionId) :=
  (artifact.inputs.mapM (Program.argument partitions)).toOption.getD default

def program : Program :=
  { name := artifact.name, partitions, graph := Graph.wire nodes arguments, inputs := arguments
    outputs := artifact.outputs.map ValueId.mk }

theorem loaded : Program.load artifact = .ok program := by
  have registered : Program.registerAll .empty artifact.partitions = .ok partitions :=
    Except.eq_ok_of_isOk (by decide +kernel)
  have resolved : artifact.nodes.mapM (Program.node partitions) = .ok nodes :=
    Except.eq_ok_of_isOk (by decide +kernel)
  have declared : artifact.inputs.mapM (Program.argument partitions) = .ok arguments :=
    Except.eq_ok_of_isOk (by decide +kernel)
  exact Program.load_eq_ok registered resolved declared (by decide +kernel) (by decide +kernel)
    (Except.eq_ok_of_isOk (by decide +kernel))

def inputs : List Value := [.cleartext 1]

/-- A context with one worker, on the processor or with one device that has room for two ciphertexts of
five words. -/
def context (accelerator : Bool) (keys : KeyCache) : Context :=
  let options : ContextOptions :=
    { parallelism := 1, accelerator, deterministic := true, elide := false, deviceMemory := 80 }
  { options, primitives := .reference
    resources := { keys, inventory := Context.inventory? options .reference [] } }

/-- The call of a program whose only worker makes some moves. -/
def alone (p : Program) (inputs : List Value) (c : Context) (moves : Nat) (o : CallChoice := {}) :
    Option (Except RunError (List Value) × Trace × Context) :=
  let (t, c) := c.begin o.token
  let e := c.environment p.partitions t
  match Plan.prepare p.graph (p.settings o c) (c.mode = .accelerator && c.resources.hasDevices) with
  | .error _ => none
  | .ok plan =>
    match Run.bind e plan (p.supply inputs) plan.graph.arguments.toList
      (Run.initial plan c.resources) with
    | (.error _, _) => none
    | (.ok (), run) =>
      let crew := (Plan.crew run 1).moves e plan (List.replicate moves (.worker 0))
      if crew.allGone then
        let a := crew.run.finish plan (.ok ())
        some (a.1.bind (Program.pick · (p.wanted o)), a.2.1, { c with resources := a.2.2 })
      else none

section Alone

variable {p : Program} {inputs : List Value} {c : Context} {moves : Nat} {o : CallChoice}
  {r : Except RunError (List Value) × Trace × Context}

/-- Such a call is planned, its arguments are put in place, and then the worker goes. -/
theorem cases_of_alone (h : alone p inputs c moves o = some r) :
    let t := (c.begin o.token).1
    let c' := (c.begin o.token).2
    let e := c'.environment p.partitions t
    ∃ plan run, Plan.prepare p.graph (p.settings o c')
        (c'.mode = .accelerator && c'.resources.hasDevices) = .ok plan ∧
      Run.bind e plan (p.supply inputs) plan.graph.arguments.toList
        (Run.initial plan c'.resources) = (.ok (), run) ∧
      let crew := (Plan.crew run 1).moves e plan (List.replicate moves (.worker 0))
      let a := crew.run.finish plan (.ok ())
      crew.allGone = true ∧
        r = (a.1.bind (Program.pick · (p.wanted o)), a.2.1, { c' with resources := a.2.2 }) := by
  unfold alone at h
  dsimp only at h
  split at h
  · contradiction
  · next plan prepared =>
      split at h
      · contradiction
      · next run bound =>
          split at h
          · next gone => exact ⟨plan, run, prepared, bound, gone, (Option.some.inj h).symm⟩
          · contradiction

/-- Once the worker is gone, the call is one that may happen. -/
theorem mayCall_of_alone (count : inputs.length = p.inputs.length) (live : c.shut = false)
    (h : alone p inputs c moves o = some r)
    (existing : o.assignment.find? (c.resources.remotes.length ≤ ·.2) = none := by rfl) :
    p.MayCall inputs o c r := by
  obtain ⟨plan, run, prepared, bound, gone, rfl⟩ := cases_of_alone h
  have live : (c.begin o.token).2.shut = false := by
    obtain ⟨cancellation, same⟩ := c.exists_begin o.token
    rw [same]
    exact live
  unfold Program.MayCall
  rw [if_neg (not_not.mpr count), existing]
  exact ⟨_, .ran live prepared (.finished _ bound gone), rfl⟩

end Alone

/-- Keys of any partition. -/
def ring (q : Partition) : KeySet := KeySet.ofSeed q {}

/-- A fresh key manager hands out these keys. -/
theorem answers (accelerator : Bool) :
    (context accelerator (.empty 32)).resources.keys.Answers program.partitions
      (context accelerator (.empty 32)).options.seed fun q k => k = ring q :=
  KeyCache.answers_of_holds (Program.checked_of_load loaded).sane.distinct (fun _ _ _ => rfl)
    (KeyCache.holds_empty 32)

theorem declared : program.inputs = [(⟨0⟩, ⟨0⟩)] := by decide +kernel

theorem accepted :
    List.Forall₂ (fun input x => program.Accepts input.2 x) program.inputs inputs := by
  rw [declared]
  exact .cons trivial .nil

/-- What a node of the program makes of messages, its output means. -/
theorem means_node {n : Node} {ms : List UInt64} {m : UInt64} (known : n ∈ program.graph.nodes)
    (read : List.Forall₂ (program.Means inputs (context false (.empty 32)) ring) n.inputs ms)
    (made : ((n.simulate ((context false (.empty 32)).environment program.partitions default)
      (ms.map (⟨·, 0⟩))).map Simulated.shadow).toOption = some m) :
    program.Means inputs (context false (.empty 32)) ring n.output m := by
  obtain ⟨s, simulated, rfl⟩ := Except.exists_of_map (Except.eq_ok_of_toOption made)
  exact .node known read.length_eq (fun q mem => (List.forall₂_iff_zip.mp read).2 mem)
    ⟨s, simulated, rfl⟩

/-- One and its negation add up to nothing. -/
theorem means_output : program.Means inputs (context false (.empty 32)) ring ⟨2⟩ 0 := by
  have known : ((context false (.empty 32)).environment program.partitions default).partition ⟨0⟩ =
      .ok Collision.base := Except.eq_ok_of_toOption (by decide +kernel)
  have argument : program.Means inputs (context false (.empty 32)) ring ⟨0⟩ 1 := by
    refine .argument (show (⟨0⟩, ⟨0⟩) ∈ program.graph.arguments by decide +kernel)
      ⟨Collision.base, trivialCiphertext Collision.base 1, known, ?_,
        Except.eq_ok_of_toOption (by decide +kernel)⟩
    simp only [Run.BindsTo, Run.argument, Program.supply, declared, inputs, known]
    rfl
  have negation : program.Means inputs (context false (.empty 32)) ring ⟨1⟩ 15 :=
    means_node (n := ⟨⟨0⟩, .neg, [⟨0⟩], ⟨1⟩, ⟨0⟩, true⟩) (by decide +kernel) (.cons argument .nil)
      (by decide +kernel)
  exact means_node (n := ⟨⟨1⟩, .add, [⟨1⟩, ⟨0⟩], ⟨2⟩, ⟨0⟩, true⟩) (by decide +kernel)
    (.cons negation (.cons argument .nil)) (by decide +kernel)

/-- Words that are all zero are near nothing. -/
theorem near_output : program.NearMeant inputs (context false (.empty 32)) ring
    (program.wanted {}) [.ciphertext [0, 0, 0, 0, 0]] := by
  have wanted : program.wanted {} = [⟨2⟩] := by decide +kernel
  have place : program.graph.slot? ⟨2⟩ = some 2 := by decide +kernel
  have known : program.partitions.get? (program.graph.slotPartition 2) = some Collision.base := by
    decide +kernel
  rw [wanted]
  intro a mem ct m same means slot q place' known'
  obtain rfl := List.mem_singleton.mp mem
  obtain rfl := Value.ciphertext.inj same
  obtain rfl := Graph.Means.unique (Program.checked_of_load loaded).wired means means_output
  obtain rfl := Option.some.inj (place.symm.trans place')
  obtain rfl := Option.some.inj (known.symm.trans known')
  exact ⟨0, Except.eq_ok_of_toOption (by decide +kernel),
    show (0 - (ring Collision.base).encode 0 + (ring Collision.base).partition.delta / 2) %
      0x8000000000000000 < (ring Collision.base).partition.delta by decide +kernel⟩

/-- A result that is one ciphertext. -/
theorem eq_ciphertext {r : Except RunError (List Value)} {ct : Ciphertext}
    (h : r.toOption.map (·.map Value.ciphertext?) = some [some ct]) : r = .ok [.ciphertext ct] := by
  obtain ⟨xs, ok, words⟩ := Option.map_eq_some_iff.mp h
  obtain ⟨x, rfl, word⟩ := List.map_eq_singleton_iff.mp words
  rw [Except.eq_ok_of_toOption ok]
  cases x with
  | ciphertext ct' => rw [Option.some.inj word]
  | _ => contradiction

/-- The negation runs on the device and stays there. The sum does not fit besides its inputs, and runs on
the processor, which gets the negation from the device. Both contexts decrypt what they return to the
same message. -/
theorem devices_agree_exhausted :
    ∃ r r' xs xs', program.MayCall inputs {} (context false (.empty 32)) r ∧
      program.MayCall inputs {} (context true (.empty 32)) r' ∧
      r'.2.1.records = [⟨⟨0⟩, .accelerator ⟨0⟩, false⟩, ⟨⟨1⟩, .cpu, true⟩] ∧
      r.1 = .ok xs ∧ r'.1 = .ok xs' ∧ (NodeFailed r.1 ↔ NodeFailed r'.1) ∧
      List.Forall₂ (fun v x => ∃ ct, x = .ciphertext ct ∧
        program.Derives inputs (context true (.empty 32)) ring v ct) (program.wanted {}) xs' ∧
      ∃ messages, (program.decryptOutputs xs r.2.2).1 = .ok messages ∧
        (program.decryptOutputs xs' r'.2.2).1 = .ok messages := by
  obtain ⟨v, devices, order⟩ : ∃ v,
      Context.inventory? (context true (.empty 32)).options .reference [] = some v ∧ v.Sound :=
    Context.sound_inventory? rfl rfl nofun
  have apart : v.ids.Nodup := by
    have ids : (Context.inventory? (context true (.empty 32)).options .reference []).map
        Inventory.ids = some [⟨0⟩] := rfl
    rw [devices] at ids
    rw [Option.some.inj ids]
    exact List.nodup_singleton _
  have count : inputs.length = program.inputs.length := accepted.length_eq.symm
  obtain ⟨r, called⟩ := Option.isSome_iff_exists.mp
    (show (alone program inputs (context false (.empty 32)) 60).isSome = true by decide +kernel)
  obtain ⟨r', called'⟩ := Option.isSome_iff_exists.mp
    (show (alone program inputs (context true (.empty 32)) 60).isSome = true by decide +kernel)
  have told : (alone program inputs (context false (.empty 32)) 60).map
      (·.1.toOption.map (·.map Value.ciphertext?)) = some (some [some [0, 0, 0, 0, 0]]) := by
    decide +kernel
  have told' : (alone program inputs (context true (.empty 32)) 60).map
      (fun r => (r.1.toOption.map (·.map Value.ciphertext?), r.2.1.records)) =
      some (some [some [0, 0, 0, 0, 0]],
        [⟨⟨0⟩, .accelerator ⟨0⟩, false⟩, ⟨⟨1⟩, .cpu, true⟩]) := by decide +kernel
  rw [called] at told
  rw [called'] at told'
  have ok := eq_ciphertext (Option.some.inj told)
  obtain ⟨ok', records⟩ := Prod.mk.inj (Option.some.inj told')
  replace ok' := eq_ciphertext ok'
  have happens := mayCall_of_alone count rfl called
  have happens' := mayCall_of_alone count rfl called'
  obtain ⟨-, -, fails, -, derives, agrees⟩ := Program.devices_agree loaded
    (c := context false (.empty 32)) (d := context true (.empty 32)) rfl rfl rfl rfl rfl rfl rfl
    devices order rfl (fun q _ => KeySet.isOf_ofSeed q {}) (answers false) (answers true) accepted
    rfl rfl rfl happens happens'
  obtain ⟨messages, -, -, -, outputs⟩ := agrees _ _ ok ok' near_output near_output
  refine ⟨r, r', _, _, happens, happens', records, ok, ok', fails ?_ ?_, derives _ ok' apart,
    messages, outputs rfl⟩
  · rw [ok]
    exact nofun
  · rw [ok']
    exact nofun

/-- With the key set of a colliding partition in the cache, the negation fails on a device and on the
processor that stands in for it, and not with a fresh key manager on the processor. -/
theorem stale_keys_fail_on_device :
    Program.load Collision.Negation.artifact = .ok Collision.Negation.program ∧
      List.Forall₂ (fun input x => Collision.Negation.program.Accepts input.2 x)
        Collision.Negation.program.inputs inputs ∧
      (context true Collision.Negation.stale).options.cpuFallback = true ∧
      (context true Collision.Negation.stale).options.seed =
        (context false (.empty 32)).options.seed ∧
      ∃ r r', Collision.Negation.program.MayCall inputs {} (context false (.empty 32)) r ∧
        Collision.Negation.program.MayCall inputs {} (context true Collision.Negation.stale) r' ∧
        ¬WasCancelled r.1 ∧ ¬WasCancelled r'.1 ∧ ¬NodeFailed r.1 ∧ NodeFailed r'.1 := by
  have count : inputs.length = Collision.Negation.program.inputs.length :=
    Collision.Negation.accepted.length_eq.symm
  obtain ⟨r, called⟩ := Option.isSome_iff_exists.mp
    (show (alone Collision.Negation.program inputs (context false (.empty 32)) 60).isSome = true by
      decide +kernel)
  obtain ⟨r', called'⟩ := Option.isSome_iff_exists.mp
    (show (alone Collision.Negation.program inputs
      (context true Collision.Negation.stale) 60).isSome = true by decide +kernel)
  have told : (alone Collision.Negation.program inputs (context false (.empty 32)) 60).map
      (Collision.Negation.failure? ·.1) = some none := by decide +kernel
  have told' : (alone Collision.Negation.program inputs
      (context true Collision.Negation.stale) 60).map (Collision.Negation.failure? ·.1) =
      some (some (.graphCancelled
        (.nodeExecution ⟨0⟩ "Ciphertext has 5 words, expected 9 (neg)") (some ⟨0⟩) 0)) := by
    decide +kernel
  rw [called] at told
  rw [called'] at told'
  obtain ⟨uncancelled, fine⟩ := Collision.Negation.not_failed (Option.some.inj told)
  have failed := Collision.Negation.eq_error_of_failure? (Option.some.inj told')
  refine ⟨Collision.Negation.loaded, Collision.Negation.accepted, rfl, rfl, r, r', mayCall_of_alone count rfl called,
    mayCall_of_alone count rfl called', uncancelled, ?_, fine, ?_⟩
  · rintro ⟨skipped, same⟩
    rw [failed] at same
    simp at same
  · exact ⟨_, _, _, failed⟩

end Exhaustion

end HomCircuit
