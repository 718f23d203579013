import HomCircuit.Proofs.Backend.Custody
import HomCircuit.Proofs.Schedule.Devices
import HomCircuit.Proofs.Schedule.Occurrence

/-!
# HomCircuit.Proofs.Schedule.Custody

Whose the allocations on devices are while a call is in flight, and that none is left when it returns.

```
allocations  =  those before the call  +  those of buffers in slots  +  those that workers have in hand
```

Nothing is asked of the call: its nodes may run anywhere and fail at any section, primitives may crash,
devices may be full, and they may be put out of order and back in while it runs.

* `Resources.Guards` — the devices of a context and what is deposited on them;
* `Conduct.custody` — the conduct that all backends share with regard to it;
* `Plan.guards_occurs`, `Plan.MayEnd.guards` — the devices during a call and after it.
-/

namespace HomCircuit

/-! ## devices of a context -/

/-- The devices of a context are those of some earlier state, with the allocations that they had then
and those of some deposits. -/
def Resources.Guards (v₀ : Inventory) (ds : List Deposit) (r : Resources) : Prop :=
  ∃ v, r.inventory = some v ∧ v₀.Guards ds v

/-- Nothing has happened to the devices of a context. -/
def Resources.SameDevices (r r' : Resources) : Prop :=
  ∀ v, r.inventory = some v → ∃ v', r'.inventory = some v' ∧ v'.devices = v.devices

namespace Resources

variable {v₀ : Inventory} {ds ds' : List Deposit} {r r' : Resources}

theorem Guards.perm (g : r.Guards v₀ ds) (same : ds.Perm ds') : r.Guards v₀ ds' := by
  obtain ⟨v, there, g⟩ := g
  exact ⟨v, there, g.perm same⟩

theorem Guards.same (g : r.Guards v₀ ds) (same : r.SameDevices r') : r'.Guards v₀ ds := by
  obtain ⟨v, there, g⟩ := g
  obtain ⟨v', there', devices⟩ := same v there
  exact ⟨v', there', g.congr devices⟩

theorem SameDevices.of_inventory (same : r'.inventory = r.inventory) : r.SameDevices r' :=
  fun v there => ⟨v, same.trans there, rfl⟩

/-- What happens on the host leaves the devices alone. -/
theorem hosts_sameDevices (e : Environment) : e.Hosts Resources.SameDevices where
  refl _ := .of_inventory rfl
  fetchKeys _ _ _ := .of_inventory rfl
  remotes _ _ _ _ _ _ := .of_inventory rfl
  toHost b r := by
    intro v there
    unfold Resources.toHost
    rw [there]
    cases b.hostValue? with
    | some value => exact ⟨v, there, rfl⟩
    | none =>
        refine ⟨_, rfl, ?_⟩
        unfold Inventory.toHost
        cases b.payload with
        | host value => rfl
        | device place => exact v.devices_download place

theorem sameDevices_recordFallback (r : Resources) : r.SameDevices r.recordFallback := by
  intro v there
  exact ⟨v.recordFallback, by simp [recordFallback, there], rfl⟩

/-- A dropped buffer gives back what is deposited for it. -/
theorem Guards.drop {b : Buffer} {d : Deposit} (payload : b.payload = .device d.place)
    (g : r.Guards v₀ (d :: ds)) : (r.drop [b]).Guards v₀ ds := by
  obtain ⟨v, there, g⟩ := g
  refine ⟨v.free d.place, ?_, g.free⟩
  simp [Resources.drop, there, Inventory.dropBuffers, Inventory.dropBuffer, Buffer.resident?, payload]

end Resources

/-! ## nodes -/

/-- What a node has in hand with a payload: what is deposited for it, which is on a device only where the
plan lets it stay. -/
def Plan.Leaving (p : Plan) (i : Nat) (own : List Deposit) (payload : Payload) : Prop :=
  (∃ value, payload.Stands value own) ∧ p.Leaves i payload

/-- Sections of a node that pass on deposits, and what the node has in hand at its end; if it failed, this
is nothing. -/
def NodeJob.Guards {α : Type} (v₀ : Inventory) (inputs : List Shelved) (good : List Deposit → α → Prop)
    (j : NodeJob α) : Prop :=
  j.Tracks (Run.Ready (Resources.Guards v₀) inputs) (Run.Trades (Resources.Guards v₀)) good
    (fun own _ => own = []) []

section Nodes

variable {e : Environment} {p : Plan} {v₀ : Inventory} {inputs : List Shelved}
  {n : Node} {q : Partition} {i : Nat}

/-- A job on the host neither makes nor frees deposits. -/
theorem NodeJob.Confined.guards {α : Type} {good : α → Prop} {j : NodeJob α}
    (h : j.Confined Resources.SameDevices good) :
    j.Guards v₀ inputs fun own a => own = [] ∧ good a := by
  refine Job.Ensures.tracks h (fun _ _ => trivial) ?_ ?_
  · rintro r r' - ⟨confines, same⟩
    exact ⟨fun rest g => g.same same, confines⟩
  · rintro r settled
    cases r with
    | error err => exact rfl
    | ok a => exact ⟨rfl, settled⟩

/-- A payload on the host leaves a node with nothing in hand. -/
theorem NodeJob.Confined.leaving {j : NodeJob Payload}
    (h : j.Confined Resources.SameDevices Payload.AtHome) : j.Guards v₀ inputs (p.Leaving i) := by
  refine Job.Tracks.mono h.guards fun own r settled => settled.mono ?_ fun _ => id
  rintro payload ⟨rfl, v, rfl⟩
  exact ⟨⟨v, .host v⟩, Plan.leaves_host⟩

/-- A node on a device leaves the deposit of its output, if any. -/
theorem guards_runOnDevice (known : q ∈ e.partitions.partitions) (bs : List Buffer) :
    (runOnDevice e p i n q bs).Guards v₀ inputs fun own out => p.Leaving i own out.1 := by
  refine .bind (confined_keysFor (Resources.hosts_sameDevices e) known).guards ?_
  rintro own keys ⟨rfl, -⟩
  have operates := @Inventory.guards_operate v₀ n.op bs keys
    (nodeNonce n.id (bs.filterMap fun b => b.hostValue? >>= Value.ciphertext?)) (p.isResident i)
  refine .bind (P := fun own out => Inventory.Leaves (p.isResident i) own out)
    (.lift (operates.within ?_ ?_)) ?_
  · rintro own r ⟨⟨rest, ⟨v, there, g⟩, -⟩, -⟩
    rw [there]
    exact ⟨rest, g⟩
  · rintro own own' r v - passes
    refine ⟨?_, rfl⟩
    rintro rest ⟨v', there, g⟩
    rw [there] at passes
    exact ⟨v, rfl, passes rest g⟩
  · intro own out leaves
    cases out with
    | done out => exact leaves
    | failed err => exact leaves
    | crashed text => exact leaves

/-- A node where it was decided to run leaves what is deposited for its payload, and nothing if it
failed. -/
theorem guards_runOn (known : q ∈ e.partitions.partitions) (target : Target) (bs : List Buffer) :
    Job.Tracks (Run.Ready (Resources.Guards v₀) inputs) (Run.Trades (Resources.Guards v₀))
      (fun own ran => Settles (p.Leaving i own) (fun _ => own = []) ran.1) []
      (runOn e p target i n q bs) := by
  have hosts := Resources.hosts_sameDevices e
  have processor : (runOnProcessor e n q bs).Guards v₀ inputs (p.Leaving i) :=
    (confined_runOnProcessor hosts known bs).leaving
  cases target with
  | simulation => exact Job.Tracks.bind (confined_runSimulated _ bs).leaving fun _ _ settled => settled
  | cpu => exact Job.Tracks.bind processor fun _ _ settled => settled
  | remote w =>
      exact Job.Tracks.bind (confined_runOnRemote hosts known w bs).leaving fun _ _ settled => settled
  | accelerator =>
      refine Job.Tracks.bind (guards_runOnDevice known bs) fun own r settled => ?_
      cases r with
      | ok out => exact settled
      | error err =>
          obtain rfl : own = [] := settled
          dsimp only
          split
          · refine .bind (P := fun own _ => own = []) (.change fun r _ => ?_) ?_
            · exact ⟨[], ⟨fun rest g => g.same (Resources.sameDevices_recordFallback _), rfl⟩, rfl⟩
            · rintro own - rfl
              exact .bind processor fun _ _ settled => settled
          · exact rfl

/-- A node gives a buffer with what is deposited for it in hand, or fails with nothing in hand. -/
theorem guards_perform {good : Nat → Value → Prop} (any : ∀ slot value, good slot value)
    {bad : Nat → RunError → Prop} (fails : ∀ i err, bad i err) (i : Nat) :
    (perform e p i).Tracks (Run.Ready (Resources.Guards v₀) inputs) (Run.Trades (Resources.Guards v₀))
      (Performed.Gives p (Resources.Guards v₀) good bad i) [] := by
  dsimp only [perform]
  cases known : e.partition (p.graph.node i).partition with
  | error err => exact ⟨rfl, fun _ _ => id, fails i err⟩
  | ok q =>
      refine Job.Tracks.bind (confined_readInputs (Resources.hosts_sameDevices e) _).guards
        fun own r settled => ?_
      cases r with
      | error err =>
          obtain rfl : own = [] := settled
          exact ⟨rfl, fun _ _ => id, fails i err⟩
      | ok bs =>
          obtain ⟨rfl, -⟩ : own = [] ∧ True := settled
          refine .bind (guards_runOn (Environment.mem_of_partition known) _ bs) ?_
          rintro own ⟨result, placement, fellBack⟩ settled
          refine ⟨rfl, ?_⟩
          cases result with
          | error err =>
              obtain rfl : own = [] := settled
              exact ⟨fun _ _ => id, fails i err⟩
          | ok payload =>
              obtain ⟨⟨value, stands⟩, leaves⟩ := settled
              refine ⟨own, fun _ _ => id, ⟨value, stands, any _ value⟩, fun resident => ?_⟩
              obtain ⟨place, found⟩ := Option.isSome_iff_exists.mp resident
              refine ⟨i, leaves place ?_, rfl⟩
              cases payload with
              | host v => contradiction
              | device place' => exact congrArg _ (Option.some.inj found)

end Nodes

/-- What every backend keeps to with regard to deposits. -/
def Conduct.custody (e : Environment) (p : Plan) (v₀ : Inventory) : Conduct e p where
  kept ds r := r.Guards v₀ ds
  good _ _ := True
  bad _ _ := True
  perm _ _ _ same g := g.perm same
  withCancellation _ _ _ g := g.same (.of_inventory rfl)
  announce _ _ _ g := g.same (.of_inventory rfl)
  drop _ _ _ _ payload g := g.drop payload
  perform i _ _ _ := guards_perform (fun _ _ => trivial) (fun _ _ => trivial) i

/-! ## calls -/

section Calls

variable {e : Environment} {p : Plan} {v : Inventory} {supplied : List (ValueId × Value)}
  {resources : Resources} {workers : Nat}

/-- Devices may be put out of order, and back in. -/
theorem Resources.Guards.switch {ds : List Deposit} {r : Resources} (g : r.Guards v ds) (i : Nat)
    (faulted : Bool) : (r.switch i faulted).Guards v ds := by
  obtain ⟨v', there, g⟩ := g
  exact ⟨_, by rw [Resources.switch, there]; rfl, g.switch i faulted⟩

theorem Stock.admits_custody :
    Stock.Admits e p supplied (Conduct.custody e p v).good :=
  fun _ _ _ _ _ _ bound => (Run.argument_host bound).imp fun _ host => ⟨host, trivial⟩

/-- Whatever happens during a call, its devices have the allocations of before it, and those of some
deposits. -/
theorem Plan.guards_occurs (sound : p.Sound) (balanced : v.Balanced)
    (there : resources.inventory = some v) {run : Run}
    (bound : Run.bind e p supplied p.graph.arguments.toList (Run.initial p resources) =
      (.ok (), run)) (workers : Nat) (os : List Occurrence) :
    ∃ ds, ((Plan.crew run workers).occurs e p os).run.resources.Guards v ds := by
  have begun := Ledger.crew (C := Conduct.custody e p v) sound ⟨v, there, balanced.guards⟩
    Stock.admits_custody bound workers []
  obtain ⟨phases, shelf, done, lost, -, ledger, -, -⟩ :=
    begun.occurs sound (fun i faulted _ _ g => Resources.Guards.switch g i faulted) os
  exact ⟨_, ledger.kept⟩

/-- When a call has ended, its devices have the allocations of before it and no other. -/
theorem Plan.MayEnd.guards {may : Occurrence → Prop} {answer : Answer} (sound : p.Sound)
    (balanced : v.Balanced) (there : resources.inventory = some v)
    (h : p.MayEnd may e workers supplied resources answer) : answer.2.2.Guards v [] :=
  h.kept (C := Conduct.custody e p v) sound (fun i faulted _ _ g => g.switch i faulted)
    Stock.admits_custody ⟨v, there, balanced.guards⟩

end Calls

end HomCircuit
