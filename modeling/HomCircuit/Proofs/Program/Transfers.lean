import HomCircuit.Proofs.Program.Nonces
import HomCircuit.Proofs.Schedule.Transfers

/-!
# HomCircuit.Proofs.Program.Transfers

What the only device of a context counts in a call of a program.

```
executions   live nodes that are eligible
downloads    those of them whose output was asked for, or is read by a live node that is not
uploads      inputs of theirs that are arguments, made by a node that is not, or among the downloads
bytes        eight for each word of what is moved
```

A context that was started with one device, and with no others than its own, has it whatever happens, with
the primitives that it was started with. So has each of its remote workers.

* `Context.follows_of_reaches` — devices and remote workers since the start of a context;
* `Context.offers_of_start` — all places of such a context have the same primitives;
* `Program.transfers_counted` — what a call adds to the counters, in every interleaving.
-/

namespace HomCircuit

/-! ## devices since the start -/

variable {asked : Partition → Prop} {begun r : Resources}

/-- A call goes on with the devices and remote workers that there were at some time. -/
theorem Environment.sustains_follows {e : Environment}
    (known : ∀ q ∈ e.partitions.partitions, asked q) : e.Sustains (begun.Follows asked []) where
  fetchKeys _ _ _ now := ⟨now.devices, now.remotes⟩
  announce _ _ now := now.announce e.primitives [_]
  remotes r i w w' there used now := by
    obtain ⟨-, -, -, linked⟩ := now.remote there
    obtain ⟨linked', options⟩ := linked.used (used.mono known)
    exact now.setRemote there options fun _ => linked'
  inventory _ _ later now := now.after later rfl

/-- Where there is a device, there are devices. -/
theorem Resources.hasDevices_of_size (r : Resources) (size : r.devices.devices.size = 1) :
    r.hasDevices = true := by
  unfold devices at size
  unfold hasDevices
  cases there : r.inventory with
  | none =>
      rw [there] at size
      exact absurd size Nat.zero_ne_one
  | some v =>
      rw [there, Option.getD_some] at size
      simp [Inventory.hasDevices, Array.isEmpty, size]

namespace Context

variable {c c' c₀ : Context} {o : ContextOptions} {ps ps' : Primitives} {e : Environment}
  {place : Placement}

/-- Whatever happens to a context, its devices and remote workers go on. -/
theorem follows_step (now : begun.Follows asked [] c.resources) (step : c.Step asked c') :
    begun.Follows asked [] c'.resources := by
  cases step with
  | register q => exact now
  | switch i faulted => exact now.after (c.resources.later_switch i faulted) rfl
  | call _ known _ ends =>
      exact ends.sustains (Environment.sustains_follows known)
        (fun _ _ _ now => ⟨now.devices, now.remotes⟩) now
  | _ => exact ⟨now.devices, now.remotes⟩

theorem follows_of_reaches (fresh : start o ps [] = .done c₀) (history : c₀.Reaches asked c) :
    c₀.resources.Follows asked [] c.resources :=
  history.keeps (fun _ _ => follows_step) (inOrder_start fresh nofun).follows

/-- A fresh context without devices of others has as many as it was told to emulate. -/
theorem devices_start (fresh : start o ps [] = .done c₀) (mode : o.mode = .accelerator) :
    c₀.resources.devices.devices = (emulatedDevices o ps).toArray := by
  obtain ⟨remotes, rfl⟩ := eq_of_start fresh
  simp [Resources.devices, inventory?, mode]

/-- Wherever a node of a context runs, it is run by the primitives that the context was started with. -/
theorem offers_of_start (fresh : start o ps [] = .done c₀)
    (follows : c₀.resources.Follows asked [] r) (own : e.primitives = ps)
    (offers : e.Offers r place ps') : ps' = ps := by
  cases offers with
  | cpu => exact own
  | @accelerator i inside =>
      have before : i < c₀.resources.devices.devices.size := follows.devices.later.size ▸ inside
      rw [(follows.devices.later.device i before).primitives]
      obtain ⟨remotes, rfl⟩ := eq_of_start fresh
      cases made : inventory? o ps [] with
      | none =>
          rw [Resources.devices, made] at before
          exact absurd before (Nat.not_lt_zero i)
      | some v =>
          simp only [Resources.devices, made, Option.getD_some] at before ⊢
          refine forall_device (P := fun d => d.primitives = ps) made (fun d mem => ?_)
            (List.forall_mem_nil _) i before
          obtain ⟨k, -, rfl⟩ := List.mem_map.mp mem
          rfl
  | @remote w worker there =>
      obtain ⟨w₀, first, options, -⟩ := follows.remote there
      obtain ⟨-, given⟩ := (remotes_of_start fresh).2 w₀ (List.mem_of_getElem? first)
      rw [options, given]
      rfl

end Context

/-! ## calls of programs -/

namespace Program

variable {p : Program} {inputs : List Value} {o : CallChoice} {c : Context}

/-- A call that answers ran as planned. -/
theorem MayCall.returned {r : Except RunError (List Value) × Trace × Context}
    (h : p.MayCall inputs o c r) {xs : List Value} (ok : r.1 = .ok xs) :
    ∃ plan t cancellation workers a,
      Plan.prepare p.graph (p.settings o c) (c.mode = .accelerator && c.resources.hasDevices) =
        .ok plan ∧
      plan.MayReturn (c.environment p.partitions t) workers (p.supply inputs)
        { c.resources with cancellation } a ∧
      r = (a.1.bind (pick · (p.wanted o)), a.2.1, { c with resources := a.2.2 }) := by
  rcases h.cases with ⟨err, rfl⟩ | ⟨t, c', a, begun, executes, rfl⟩
  · contradiction
  · obtain ⟨cancellation, same⟩ := c.exists_begin o.token
    rw [begun] at same
    obtain rfl : c' = { c with resources := { c.resources with cancellation } } := same
    cases executes with
    | shut gone => contradiction
    | unprepared live failed => contradiction
    | ran live prepared returns => exact ⟨_, t, cancellation, _, a, prepared, returns, rfl⟩

/-- In a context with one emulated device, whatever has happened to it since its start, consider a call of
a loaded program that assigns no node to a remote worker, that answers, in whatever interleaving of its
workers, and in which no node fell back on the processor. It answers the contents of the slots that it was
asked for, and adds to the counters of the device what its plan tells of these contents: an execution for
each live node that is eligible, a download for each of them whose output is asked for or read by a live
node that is not eligible, an upload for each of their inputs that is an argument, or comes from a node
that is not eligible or whose output is downloaded, and eight bytes for each word that is moved there or
back. -/
theorem transfers_counted {asked : Partition → Prop} {co : ContextOptions}
    (accelerator : co.mode = .accelerator) (one : co.deviceCount = 1) {ps : Primitives} {c₀ : Context}
    (fresh : Context.start co ps [] = .done c₀) (history : c₀.Reaches asked c) {artifact : Artifact}
    (loaded : load artifact = .ok p) (home : o.assignment = [])
    {r : Except RunError (List Value) × Trace × Context} (h : p.MayCall inputs o c r)
    {xs : List Value} (ok : r.1 = .ok xs) (assisted : r.2.1.fallbacks = 0) :
    ∃ plan content, Plan.prepare p.graph (p.settings o c) true = .ok plan ∧
      plan.Carries (c.environment p.partitions default) (p.supply inputs) content ∧
      List.Forall₂ (fun v x => ∃ slot, p.graph.slot? v = some slot ∧ x = .ciphertext (content slot))
        (p.wanted o) xs ∧
      r.2.2.resources.devices.counters = c.resources.devices.counters + plan.transfers content := by
  have checked := checked_of_load loaded
  obtain ⟨plan, t, cancellation, workers, a, prepared, returns, rfl⟩ := h.returned ok
  -- the partitions of the program are asked for as well
  let asked' (q : Partition) : Prop := asked q ∨ q ∈ p.partitions.partitions
  have follows : c₀.resources.Follows asked' [] c.resources :=
    Context.follows_of_reaches fresh (history.mono fun _ => .inl)
  have now : c₀.resources.Follows asked' [] { c.resources with cancellation } :=
    ⟨follows.devices, follows.remotes⟩
  have size : c.resources.devices.devices.size = 1 := by
    rw [follows.devices.later.size, Context.devices_start fresh accelerator]
    simp [Context.emulatedDevices, one]
  obtain ⟨options, primitives, -⟩ := history.unchanged
  obtain ⟨remotes, begun⟩ := Context.eq_of_start fresh
  rw [begun] at options primitives
  have mode : c.mode = .accelerator := (congrArg ContextOptions.mode options).trans accelerator
  rw [mode, c.resources.hasDevices_of_size size] at prepared
  have offloads : plan.Offloads (c.environment p.partitions t) :=
    Plan.offloads_of_prepare checked.wired prepared mode home
  obtain ⟨sound, graph, -⟩ := Plan.sound_of_prepare checked.wired prepared
  obtain ⟨values, answered, picked⟩ := Except.exists_of_bind ok
  obtain ⟨content, carries, rfl, counted⟩ := returns.transfers offloads
    (.of_partitions fun q known => .inr known) now.inOrder size
    (fun place ps' offers => (Context.offers_of_start fresh now primitives offers).trans primitives.symm)
    answered assisted
  refine ⟨plan, content, prepared, ⟨carries.argument, carries.made⟩, ?_, counted⟩
  refine (forall₂_pick picked).imp fun v x mem => ?_
  obtain ⟨q, there, same⟩ := List.mem_map.mp mem
  obtain ⟨rfl, rfl⟩ := Prod.mk.inj same
  exact ⟨q.2, graph ▸ sound.slots q there, rfl⟩

end Program

/-! ## a processor in between -/

namespace Ferry

open Exhaustion (alone mayCall_of_alone)

/-- A negation that stays on the device, the sum of its result and its argument, the negation of this
sum on the processor, and the sum of both. -/
def artifact : Artifact :=
  { name := "ferry"
    partitions := [{ name := "P", lweDim := 1, glweDim := 1, polySize := 4 }]
    inputs := [{ value := 0, partition := "P" }]
    outputs := [4]
    nodes :=
      [{ id := 0, op := .neg, inputs := [0], output := 1, partition := "P" },
        { id := 1, op := .add, inputs := [1, 0], output := 2, partition := "P" },
        { id := 2, op := .neg, inputs := [2], output := 3, partition := "P", eligible := some false },
        { id := 3, op := .add, inputs := [2, 3], output := 4, partition := "P" }] }

def partitions : Registry := (Program.registerAll .empty artifact.partitions).toOption.getD default

def nodes : List Node := (artifact.nodes.mapM (Program.node partitions)).toOption.getD default

def arguments : List (ValueId × PartitionId) :=
  (artifact.inputs.mapM (Program.argument partitions)).toOption.getD default

def program : Program :=
  { name := artifact.name, partitions, graph := Graph.wire nodes arguments, inputs := arguments
    outputs := artifact.outputs.map ValueId.mk }

theorem loaded : Program.load artifact = .ok program := by
  have registered : Program.registerAll .empty artifact.partitions = .ok partitions :=
    Except.eq_ok_of_isOk (by decide +kernel)
  have resolved : artifact.nodes.mapM (Program.node partitions) = .ok nodes :=
    Except.eq_ok_of_isOk (by decide +kernel)
  have declared : artifact.inputs.mapM (Program.argument partitions) = .ok arguments :=
    Except.eq_ok_of_isOk (by decide +kernel)
  exact Program.load_eq_ok registered resolved declared (by decide +kernel) (by decide +kernel)
    (Except.eq_ok_of_isOk (by decide +kernel))

/-- A fresh context with one worker and one device. -/
def context : Context := Residence.context true

/-- All that the call counts: the argument is brought to both nodes that read it, and the second sum gets
its inputs from the host, of which one was made there and the other has come back. -/
def counters : TransferCounters :=
  { executions := 3, uploads := 4, downloads := 2, bytesToDevice := 160, bytesToHost := 80 }

theorem outcome :
    ((alone program Exhaustion.inputs context 80).map fun r =>
      (r.1.toOption.isSome, r.2.1.fallbacks, r.2.2.resources.devices.counters)) =
        some (true, 0, counters) := by
  decide +kernel

/-- The transfers of the call are those that the device has counted. -/
theorem transfers_counted_ferry :
    ∃ r xs plan content, program.MayCall Exhaustion.inputs {} context r ∧ r.1 = .ok xs ∧
      Plan.prepare program.graph (program.settings {} context) true = .ok plan ∧
      plan.Carries (context.environment program.partitions default)
        (program.supply Exhaustion.inputs) content ∧
      plan.transfers content = counters ∧ r.2.2.resources.devices.counters = counters := by
  obtain ⟨r, called, told⟩ := Option.map_eq_some_iff.mp outcome
  obtain ⟨answered, rest⟩ := Prod.mk.inj told
  obtain ⟨assisted, counted⟩ := Prod.mk.inj rest
  obtain ⟨xs, some_⟩ := Option.isSome_iff_exists.mp answered
  have ok := Except.eq_ok_of_toOption some_
  have happens := mayCall_of_alone (by decide +kernel) rfl called
  obtain ⟨plan, content, prepared, carries, -, total⟩ := Program.transfers_counted rfl rfl
    (show Context.start context.options .reference [] = .done context from rfl)
    (.refl : context.Reaches (fun _ => False) context) loaded rfl happens ok assisted
  refine ⟨r, xs, plan, content, happens, ok, prepared, carries, ?_, counted⟩
  have nothing : context.resources.devices.counters = 0 := rfl
  rw [nothing, zero_add, counted] at total
  exact total.symm

end Ferry

end HomCircuit
