import HomCircuit.Proofs.Context.History
import HomCircuit.Proofs.Program.Fallback
import HomCircuit.Proofs.Schedule.Custody

/-!
# HomCircuit.Proofs.Program.Custody

No call leaves anything on a device, and the books of all devices are right at all times.

```
before a call   allocations of whatever origin
during it       these, and those of deposits         bytes in use  =  eight a word  ≤  capacity
after it        these
```

* `Context.balanced_of_reaches` — devices are in balance whatever has happened to their context;
* `Program.devices_restored` — what a call of a program leaves on devices, in every interleaving, however
  it ends, and whatever becomes of the devices meanwhile.
-/

namespace HomCircuit

/-! ## contexts -/

/-- A context has devices, and all of them are in balance. -/
def Resources.Balanced (r : Resources) : Prop := ∃ v, r.inventory = some v ∧ v.Balanced

/-- The devices of a context hold exactly the allocations of some earlier state, and are in balance. -/
def Resources.Restored (v : Inventory) (r : Resources) : Prop :=
  ∃ v', r.inventory = some v' ∧ v'.Balanced ∧ v.Restored v'

namespace Resources

variable {v : Inventory} {ds : List Deposit} {r : Resources}

theorem Guards.balanced (g : r.Guards v ds) : r.Balanced := by
  obtain ⟨v', there, g⟩ := g
  exact ⟨v', there, g.balanced⟩

theorem Guards.restored (balanced : v.Balanced) (g : r.Guards v []) : r.Restored v := by
  obtain ⟨v', there, g⟩ := g
  exact ⟨v', there, g.balanced, g.restored balanced⟩

end Resources

namespace Context

variable {asked : Partition → Prop} {o : ContextOptions} {ps : Primitives} {devices : List Device}
  {c₀ c : Context}

/-- A fresh context with devices has them in balance, if those that it is given are. -/
theorem balanced_start (fresh : Context.start o ps devices = .done c) (mode : o.mode = .accelerator)
    (given : ∀ d ∈ devices, d.Balanced) : c.resources.Balanced := by
  obtain ⟨remotes, rfl⟩ := eq_of_start fresh
  obtain ⟨v, made⟩ : ∃ v, inventory? o ps devices = some v := ⟨_, if_pos mode⟩
  refine ⟨v, made, forall_device made (fun d mem => ?_) given⟩
  obtain ⟨i, -, rfl⟩ := List.mem_map.mp mem
  exact Device.balanced_of_empty rfl rfl

/-- Whatever happens to a context, its devices stay in balance. -/
theorem balanced_step {c' : Context} (b : c.resources.Balanced) (step : c.Step asked c') :
    c'.resources.Balanced := by
  obtain ⟨v, there, balanced⟩ := b
  cases step with
  | register q => exact ⟨v, there, balanced⟩
  | switch i faulted =>
      exact (Resources.Guards.switch ⟨v, there, balanced.guards⟩ i faulted).balanced
  | call wired _ prepared ends =>
      obtain ⟨sound, -, -⟩ := Plan.sound_of_prepare wired prepared
      exact (ends.guards sound balanced there).balanced
  | _ => exact ⟨v, there, balanced⟩

/-- A call that begins leaves the devices alone. -/
theorem inventory_begin {token : Option CancelToken} {t : CancelToken} {c' : Context}
    (begun : c.begin token = (t, c')) : c'.resources.inventory = c.resources.inventory := by
  obtain ⟨cancellation, same⟩ := c.exists_begin token
  rw [begun] at same
  exact congrArg (fun c => c.resources.inventory) same

/-- Devices are in balance whatever has happened to their context. -/
theorem balanced_of_reaches (fresh : Context.start o ps devices = .done c₀)
    (mode : o.mode = .accelerator) (given : ∀ d ∈ devices, d.Balanced)
    (history : c₀.Reaches asked c) : c.resources.Balanced :=
  history.keeps (fun _ _ => balanced_step) (balanced_start fresh mode given)

end Context

/-! ## calls of programs -/

namespace Program

variable {p : Program} {inputs : List Value} {o : CallChoice} {c : Context} {v : Inventory}

/-- A call leaves the devices of its context as they were. -/
theorem MayCall.restored {r : Except RunError (List Value) × Trace × Context} (checked : p.Checked)
    (there : c.resources.inventory = some v) (balanced : v.Balanced) (h : p.MayCall inputs o c r) :
    r.2.2.resources.Restored v := by
  have same : v.Restored v := balanced.guards.restored balanced
  rcases h.cases with ⟨err, rfl⟩ | ⟨t, c', a, begun, executes, rfl⟩
  · exact ⟨v, there, balanced, same⟩
  · have there' := (Context.inventory_begin begun).trans there
    cases executes with
    | shut gone => exact ⟨v, there', balanced, same⟩
    | unprepared live failed => exact ⟨v, there', balanced, same⟩
    | ran live prepared returns =>
        obtain ⟨sound, -, -⟩ := Plan.sound_of_prepare checked.wired prepared
        exact (returns.mayEnd.guards sound balanced there').restored balanced

/-- In a context with devices of any sizes, whatever has happened to it since its start, the books of
all devices agree with their allocations. A call of a loaded program, with fallback or without, leaves
each device with exactly the allocations that it held before, whatever the call comes to. While it runs,
whatever happens and however often devices are put out of order and back in, the devices hold these
allocations and those of some deposits, and their books agree with them. Once the last worker has gone, or
the arguments were refused, only the first are left. -/
theorem devices_restored {asked : Partition → Prop} {co : ContextOptions} {ps : Primitives}
    {devices : List Device} {c₀ : Context} (fresh : Context.start co ps devices = .done c₀)
    (mode : co.mode = .accelerator) (given : ∀ d ∈ devices, d.Balanced)
    (history : c₀.Reaches asked c) {artifact : Artifact} (loaded : load artifact = .ok p)
    (inputs : List Value) (o : CallChoice) :
    ∃ v, c.resources.inventory = some v ∧ v.Balanced ∧
      -- after the call
      (∀ r, p.MayCall inputs o c r → r.2.2.resources.Restored v) ∧
      -- the same call while devices fail and recover
      ∀ t c' plan, c.begin o.token = (t, c') →
        Plan.prepare p.graph (p.settings o c') (c'.mode = .accelerator && c'.resources.hasDevices) =
          .ok plan →
        let e := c'.environment p.partitions t
        (∀ run, Run.bind e plan (p.supply inputs) plan.graph.arguments.toList
            (Run.initial plan c'.resources) = (.ok (), run) →
          ∀ workers os, let now := ((Plan.crew run workers).occurs e plan os).run.resources
            now.Balanced ∧ ∃ ds, now.Guards v ds) ∧
        ∀ workers answer,
          plan.MayEnd (fun _ => True) e workers (p.supply inputs) c'.resources answer →
          answer.2.2.Restored v := by
  have checked := checked_of_load loaded
  obtain ⟨v, there, balanced⟩ := Context.balanced_of_reaches fresh mode given history
  refine ⟨v, there, balanced, fun r h => h.restored checked there balanced, ?_⟩
  intro t c' plan begun prepared e
  obtain ⟨sound, -, -⟩ := Plan.sound_of_prepare checked.wired prepared
  have there' := (Context.inventory_begin begun).trans there
  refine ⟨fun run bound workers os => ?_, fun workers answer ends => ?_⟩
  · obtain ⟨ds, guards⟩ := Plan.guards_occurs sound balanced there' bound workers os
    exact ⟨guards.balanced, ds, guards⟩
  · exact (ends.guards sound balanced there').restored balanced

end Program

namespace Exhaustion

/-- The device that has no room for a sum besides its inputs is empty again after the call. -/
theorem devices_restored_exhausted :
    ∃ r v, program.MayCall inputs {} (context true (.empty 32)) r ∧
      r.2.2.resources.inventory = some v ∧ v.devices.size = 1 ∧ (v.device 0).buffers = [] ∧
      (v.device 0).usedBytes = 0 := by
  have fresh : Context.start (context true (.empty 32)).options .reference [] =
      .done (context true (.empty 32)) := rfl
  have history : (context true (.empty 32)).Reaches (fun _ => True) (context true (.empty 32)) := .refl
  obtain ⟨v, there, -, restored, -⟩ :=
    Program.devices_restored fresh rfl nofun history loaded inputs {}
  obtain ⟨v', there', order⟩ : ∃ v,
      Context.inventory? (context true (.empty 32)).options .reference [] = some v ∧ v.Sound :=
    Context.sound_inventory? rfl rfl nofun
  have called : program.MayCall inputs {} (context true (.empty 32))
      (program.callWith inputs {} (context true (.empty 32))) :=
    (Program.checked_of_load loaded).mayCall_devices rfl rfl rfl there' order
      (fun q _ => KeySet.isOf_ofSeed q {}) (answers true) rfl
  obtain ⟨after, found, -, same⟩ := restored _ called
  -- before the call, there is one device with nothing on it
  have before : (context true (.empty 32)).resources.inventory.map (fun v =>
      (v.devices.size, (v.device 0).buffers, (v.device 0).usedBytes)) = some (1, [], 0) := rfl
  rw [there] at before
  obtain ⟨size, empty, unused⟩ : v.devices.size = 1 ∧ (v.device 0).buffers = [] ∧
      (v.device 0).usedBytes = 0 := by simpa using before
  have device := same.device 0 (size ▸ Nat.one_pos)
  exact ⟨_, after, called, found, same.size.trans size, (empty ▸ device.buffers).eq_nil,
    device.usedBytes.trans unused⟩

end Exhaustion

end HomCircuit
