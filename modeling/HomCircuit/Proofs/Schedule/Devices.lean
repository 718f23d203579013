import HomCircuit.Proofs.Backend.Devices
import HomCircuit.Proofs.Schedule.Confined
import HomCircuit.Proofs.Schedule.Derivation

/-!
# HomCircuit.Proofs.Schedule.Devices

What a node comes to in a context with devices, in every schedule: a ciphertext that its graph derives,
or the failure of a table that does not fit. A device that cannot serve leaves no trace in the result.

```
on a device   →  the output, on the device or on the host
              →  an error of the device, with nothing left behind  →  on the processor
```

The processor gets the words of every input, wherever it is. Errors that are not those of a device are
those of the processor.

* `Environment.Equips` — what no section takes away: the keys, and what is deposited on the devices;
* `Assisted` — a call in a context with devices, with the processor to fall back on;
* `Assisted.tracks_runOn` — a node where it was decided to run;
* `Assisted.conduct` — devices and processor together as the scheduler sees them.
-/

namespace HomCircuit

/-! ## what is kept -/

/-- The key manager hands out the keys of a ring, and the devices hold what is deposited on them. -/
structure Environment.Equips (e : Environment) (ring : Partition → KeySet) (ids : List DeviceId)
    (ds : List Deposit) (r : Resources) : Prop where
  keys : e.HandsOut (fun q k => k = ring q) r
  stores : ∃ v, r.inventory = some v ∧ v.Stores ids ds

namespace Environment.Equips

variable {e : Environment} {ring : Partition → KeySet} {ids : List DeviceId} {ds ds' : List Deposit}
  {r r' : Resources}

theorem perm (h : e.Equips ring ids ds r) (same : ds.Perm ds') : e.Equips ring ids ds' r := by
  obtain ⟨v, there, st⟩ := h.stores
  exact ⟨h.keys, v, there, st.perm same⟩

/-- Only the cached keys and the devices matter. -/
theorem congr (h : e.Equips ring ids ds r) (keys : r'.keys = r.keys)
    (inventory : r'.inventory = r.inventory) : e.Equips ring ids ds r' :=
  ⟨by simpa only [HandsOut, keys] using h.keys, inventory ▸ h.stores⟩

/-- A dropped buffer gives back what is deposited for it. -/
theorem drop {b : Buffer} {d : Deposit} (payload : b.payload = .device d.place)
    (h : e.Equips ring ids (d :: ds) r) : e.Equips ring ids ds (r.drop [b]) := by
  obtain ⟨v, there, st⟩ := h.stores
  refine ⟨h.keys, v.free d.place, ?_, st.free⟩
  simp [Resources.drop, there, Inventory.dropBuffers, Inventory.dropBuffer, Buffer.resident?, payload]

/-- A fallback is counted. -/
theorem recordFallback (h : e.Equips ring ids ds r) : e.Equips ring ids ds r.recordFallback := by
  obtain ⟨v, there, st⟩ := h.stores
  refine ⟨h.keys, v.recordFallback, ?_, st.congr rfl⟩
  simp [Resources.recordFallback, there]

/-- A buffer is copied to the host as what it stands for, and nothing is taken away. -/
theorem toHost {b : Buffer} {x : Value} {own : List Deposit} (h : e.Equips ring ids ds r)
    (stands : b.payload.Stands x own) (there : own ⊆ ds) :
    (r.toHost b).1 = .ok x ∧ ∀ ds', e.Equips ring ids ds' r → e.Equips ring ids ds' (r.toHost b).2 := by
  obtain ⟨v, found, st⟩ := h.stores
  obtain ⟨copied, same⟩ := st.toHost stands there
  cases payload : b.payload with
  | host y =>
      rw [payload] at stands
      cases stands
      simp only [Resources.toHost, Buffer.hostValue?, payload]
      exact ⟨trivial, fun _ => id⟩
  | device place =>
      simp only [Resources.toHost, Buffer.hostValue?, payload, found, copied]
      refine ⟨rfl, fun ds' h' => ?_⟩
      obtain ⟨v', found', st'⟩ := h'.stores
      obtain rfl := Option.some.inj (found.symm.trans found')
      exact ⟨h'.keys, _, rfl, st'.congr same⟩

end Environment.Equips

/-! ## jobs of a node -/

namespace NodeJob

variable {α β γ : Type} {pre : γ → Run → Prop} {rel : γ → γ → Run → Run → Prop}
  {P : γ → α → Prop} {bad : γ → RunError → Prop} {own : γ}

/-- What a job of a node that has something in hand guarantees: a good result for what is in hand at
the end, or an error. -/
def Tracks (pre : γ → Run → Prop) (rel : γ → γ → Run → Run → Prop) (good : γ → α → Prop)
    (bad : γ → RunError → Prop) (own : γ) (j : NodeJob α) : Prop :=
  Job.Tracks pre rel (fun own' => Settles (good own') (bad own')) own j.run

theorem Tracks.bind {Q : γ → β → Prop} {j : NodeJob α} {k : α → NodeJob β}
    (h : j.Tracks pre rel P bad own)
    (hk : ∀ own' a, P own' a → (k a).Tracks pre rel Q bad own') :
    (j >>= k).Tracks pre rel Q bad own := by
  refine Job.Tracks.bind h fun own' r settled => ?_
  cases r with
  | ok a => exact hk own' a settled
  | error err => exact settled

theorem Tracks.lift {j : Job Run α} (h : j.Tracks pre rel P own) :
    NodeJob.Tracks pre rel P bad own (ExceptT.lift j) :=
  Job.Tracks.bind h fun _ _ settled => settled

end NodeJob

/-! ## inputs -/

/-- What the buffers of the inputs of a node stand for. -/
theorem Plan.Supplies.exists_words {p : Plan} {fits : Nat → Ciphertext → Prop} {i : Nat}
    {inputs : List Shelved} (h : p.Supplies (Holding .ciphertext fits) i inputs) :
    ∃ words, List.Forall₂ fits (p.graph.inputsOf i) words ∧
      List.Forall₂ (fun x w => x.buffer.payload.Stands (.ciphertext w) x.deposits) inputs words := by
  unfold Plan.Supplies at h
  generalize p.graph.inputsOf i = slots at h
  induction h with
  | nil => exact ⟨[], .nil, .nil⟩
  | cons first rest ih =>
      obtain ⟨words, fit, stands⟩ := ih
      obtain ⟨-, ⟨v, stands', w, rfl, fit'⟩, -⟩ := first
      exact ⟨w :: words, .cons fit' fit, .cons stands' stands⟩

/-- The words that the host sees are some of those of the inputs. -/
theorem sublist_hostWords {inputs : List Shelved} {words : List Ciphertext}
    (stands : List.Forall₂ (fun x w => x.buffer.payload.Stands (.ciphertext w) x.deposits) inputs
      words) :
    ((inputs.map Shelved.buffer).filterMap fun b => b.hostValue? >>= Value.ciphertext?).Sublist
      words := by
  induction stands with
  | nil => exact .slnil
  | @cons x w inputs words first rest ih =>
      rw [List.map_cons, List.filterMap_cons]
      cases seen : x.buffer.hostValue? >>= Value.ciphertext? with
      | none => exact ih.cons w
      | some w' =>
          obtain rfl : w' = w := by
            unfold Buffer.hostValue? at seen
            generalize x.buffer.payload = payload at first seen
            generalize x.deposits = deposits at first
            cases first with
            | host v => simpa [Value.ciphertext?] using seen.symm
            | device place => simp at seen
          exact ih.cons_cons w'

/-- A node that finds its inputs reads them. -/
theorem ensures_readInputs_shelved {p : Plan} {n : Node} {inputs xs : List Shelved}
    (sub : ∀ x ∈ xs, x ∈ inputs) :
    (readInputs p n (xs.map Shelved.slot)).Ensures
      (fun r => ∀ x ∈ inputs, r.arena.get? x.slot = some x.buffer) (fun r r' => r' = r)
      (· = xs.map Shelved.buffer) (fun _ => False) := by
  induction xs with
  | nil => exact .pure rfl
  | cons x xs ih =>
      obtain ⟨mem, others⟩ := List.forall_mem_cons.mp sub
      refine .bind (P := (· = some x.buffer)) (.lift (.look fun r found => ⟨rfl, found x mem⟩)) ?_
      rintro b rfl
      exact .bind (ih others) fun bs read => .pure (congrArg (x.buffer :: ·) read)

/-! ## a node -/

/-- A call of a graph in a context with devices in order, where the processor takes over if a device
fails. -/
structure Assisted (e : Environment) (p : Plan) (ring : Partition → KeySet) : Prop where
  sound : p.Sound
  covers : e.Covers p.graph
  isOf : ∀ q ∈ e.partitions.partitions, (ring q).IsOf q
  accelerator : e.mode = .accelerator
  reference : e.primitives = .reference
  fallback : e.cpuFallback = true
  home : p.options.assignment = []

/-- A node gave a payload that stands for a ciphertext by what is in hand, or an error with nothing in
hand. -/
def Plan.Hands (p : Plan) (fits : Ciphertext → Prop) (bad : RunError → Prop) (i : Nat)
    (own : List Deposit) : Except RunError Payload → Prop :=
  Settles (fun payload => ∃ ct, payload.Stands (.ciphertext ct) own ∧ p.Leaves i payload ∧ fits ct)
    fun err => own = [] ∧ bad err

namespace Assisted

section Node

variable {e : Environment} {p : Plan} {ring : Partition → KeySet} {ids : List DeviceId}
  {inputs : List Shelved} {words : List Ciphertext} {n : Node} {q : Partition} {i : Nat}

/-- Nodes run on the processor or on devices. -/
theorem target (a : Assisted e p ring) (n : Node) :
    (choose n e.mode p.accelerating (p.worker? n)).target = .cpu ∨
      (choose n e.mode p.accelerating (p.worker? n)).target = .accelerator := by
  rw [show p.worker? n = none by simp [Plan.worker?, a.home], a.accelerator]
  unfold choose
  dsimp only
  split
  · exact .inl rfl
  · split
    · exact .inl rfl
    · exact .inr rfl

/-- Keys are fetched with nothing in hand. -/
theorem fetches :
    Run.Fetches e (fun q k => k = ring q) (Run.Ready (e.Equips ring ids) inputs [])
      (Run.Trades (e.Equips ring ids) [] []) where
  hands r ready := by
    obtain ⟨⟨rest, equips, -⟩, -⟩ := ready
    exact equips.keys
  across r keys _ handed := ⟨fun rest equips => ⟨handed, equips.stores⟩, rfl⟩

/-- Inputs are copied to the host wherever they are. -/
theorem copies
    (stands : List.Forall₂ (fun x w => x.buffer.payload.Stands (.ciphertext w) x.deposits) inputs
      words) :
    List.Forall₂ (Run.Copies (Run.Ready (e.Equips ring ids) inputs [])
      (Run.Trades (e.Equips ring ids) [] [])) (inputs.map Shelved.buffer) words := by
  rw [List.forall₂_map_left_iff]
  refine ((List.forall₂_and_left (p := (· ∈ inputs)) _ _).mpr ⟨fun _ => id, stands⟩).imp ?_
  rintro x w ⟨mem, stands⟩ r ⟨⟨rest, equips, there⟩, -⟩
  obtain ⟨copied, across⟩ := equips.toHost stands (there x mem)
  exact ⟨copied, across, rfl⟩

/-- A node on the processor comes to one of its results, wherever its inputs are. -/
theorem tracks_runOnProcessor (reference : e.primitives = .reference)
    (known : e.partition n.partition = .ok q)
    (stands : List.Forall₂ (fun x w => x.buffer.payload.Stands (.ciphertext w) x.deposits) inputs
      words) :
    Job.Tracks (Run.Ready (e.Equips ring ids) inputs) (Run.Trades (e.Equips ring ids))
      (fun own => p.Hands (fun ct => n.Computes e (fun q k => k = ring q) words (.ok ct))
        (fun err => n.Computes e (fun q k => k = ring q) words (.error err)) i own)
      [] (runOnProcessor e n q (inputs.map Shelved.buffer)).run := by
  refine Job.Ensures.tracks
    (ensures_runOnProcessor reference known fetches (copies stands)) (fun _ => id)
    (fun _ _ _ => id) fun r settled => ?_
  cases r with
  | ok payload =>
      obtain ⟨ct, rfl, computed⟩ := settled
      exact ⟨ct, .host _, Plan.leaves_host, computed⟩
  | error err => exact ⟨rfl, settled⟩

/-- A node on a device gives a ciphertext that it makes of what the device was handed, or fails with
nothing in hand; an error that is not one of a device is one of the processor. -/
theorem tracks_runOnDevice (known : e.partition n.partition = .ok q)
    (stands : List.Forall₂ (fun x w => x.buffer.payload.Stands (.ciphertext w) x.deposits) inputs
      words) :
    NodeJob.Tracks (Run.Ready (e.Equips ring ids) inputs) (Run.Trades (e.Equips ring ids))
      (fun own out => ∃ ct given seen, out.1.Stands (.ciphertext ct) own ∧ p.Leaves i out.1 ∧
        (ids.Nodup → given = words) ∧ seen.Sublist words ∧ n.Makes e ring given seen ct)
      (fun own err => own = [] ∧ (err.isRecoverable = true ∨
        n.Computes e (fun q k => k = ring q) words (.error err)))
      [] (runOnDevice e p i n q (inputs.map Shelved.buffer)) := by
  have seen := sublist_hostWords stands
  refine .bind (P := fun own k => own = [] ∧ k.output = ring q ∧
    ∃ source, sourcePartition e n = .ok source ∧ k.input = source.map ring) ?_ ?_
  · refine Job.Ensures.tracks (@ensures_keysFor _ _ _ words _ _ _ known fetches) (fun _ => id) (fun _ _ _ => id) fun r settled => ?_
    cases r with
    | ok k =>
        obtain ⟨own, source, found, other⟩ := settled
        exact ⟨rfl, own, source, found, eq_map_of_rel other⟩
    | error err => exact ⟨rfl, .inr settled⟩
  · rintro own ⟨output, input⟩ ⟨rfl, rfl, source, found, rfl⟩
    have stands' : List.Forall₂ (fun b w => ∃ ds, b.payload.Stands (.ciphertext w) ds ∧
        ds ⊆ deposited inputs) (inputs.map Shelved.buffer) words := by
      rw [List.forall₂_map_left_iff]
      refine ((List.forall₂_and_left (p := (· ∈ inputs)) _ _).mpr ⟨fun _ => id, stands⟩).imp ?_
      rintro x w ⟨mem, stands⟩
      exact ⟨x.deposits, stands, fun d held => List.mem_flatMap.mpr ⟨x, mem, held⟩⟩
    have operates := @Inventory.tracks_operate ids _ n.op _ _ ⟨ring q, source.map ring⟩
      (nodeNonce n.id
        ((inputs.map Shelved.buffer).filterMap fun b => b.hostValue? >>= Value.ciphertext?))
      (p.isResident i) stands'
    refine .bind (.lift (operates.within ?_ ?_)) ?_
    · rintro own r ⟨⟨rest, equips, there⟩, -⟩
      obtain ⟨v, found, st⟩ := equips.stores
      rw [found]
      refine ⟨rest, st, fun d held => ?_⟩
      obtain ⟨x, mem, held⟩ := List.mem_flatMap.mp held
      exact there x mem held
    · rintro own own' r v - trades
      refine ⟨fun rest equips => ?_, rfl⟩
      obtain ⟨v', found, st⟩ := equips.stores
      rw [found] at trades
      exact ⟨equips.keys, v, rfl, trades rest st⟩
    · intro own out settled
      cases out with
      | done out =>
          obtain ⟨ct, stands, leaves, given, same, made⟩ := settled
          exact ⟨ct, given, _, stands, leaves, same, seen, .ran known found made⟩
      | failed err => exact ⟨settled, .inl rfl⟩
      | crashed text => exact settled.elim

/-- A node where it was decided to run gives what it delivers, or fails with a table that does not
fit. -/
theorem tracks_runOn (a : Assisted e p ring) {supplied : List (ValueId × Value)}
    (inside : i < p.graph.size) (known : e.partition (p.graph.node i).partition = .ok q)
    (fit : List.Forall₂ (p.graph.Delivers e supplied ring ids.Nodup) (p.graph.inputsOf i) words)
    (stands : List.Forall₂ (fun x w => x.buffer.payload.Stands (.ciphertext w) x.deposits) inputs
      words) :
    Job.Tracks (Run.Ready (e.Equips ring ids) inputs) (Run.Trades (e.Equips ring ids))
      (fun own ran => p.Hands (p.graph.Delivers e supplied ring ids.Nodup (p.graph.outputSlot i))
        ((p.graph.node i).Misfits e) i own ran.1)
      [] (runOn e p (choose (p.graph.node i) e.mode p.accelerating
        (p.worker? (p.graph.node i))).target i (p.graph.node i) q (inputs.map Shelved.buffer)) := by
  have computed {result : Except RunError Ciphertext}
      (h : (p.graph.node i).Computes e (fun q k => k = ring q) words result) :=
    a.covers.delivers_computed a.sound.wired a.isOf inside fit h
  have processor (placement : Placement) (fellBack : Bool) :
      Job.Tracks (Run.Ready (e.Equips ring ids) inputs) (Run.Trades (e.Equips ring ids))
        (fun own ran => p.Hands (p.graph.Delivers e supplied ring ids.Nodup (p.graph.outputSlot i))
          ((p.graph.node i).Misfits e) i own ran.1) []
        (do
          let result ← (runOnProcessor e (p.graph.node i) q (inputs.map Shelved.buffer)).run
          return (result, placement, fellBack)) := by
    refine .bind (tracks_runOnProcessor (p := p) (i := i) a.reference known stands)
      fun own result settled => ?_
    cases result with
    | ok payload =>
        obtain ⟨ct, stands, leaves, h⟩ := settled
        exact ⟨ct, stands, leaves, computed h⟩
    | error err => exact ⟨settled.1, computed settled.2⟩
  rcases a.target (p.graph.node i) with cpu | accelerator
  · rw [cpu]
    exact processor _ _
  · rw [accelerator]
    refine Job.Tracks.bind (tracks_runOnDevice (p := p) (i := i) known stands)
      fun own result settled => ?_
    cases result with
    | ok out =>
        obtain ⟨ct, given, seen, stands, leaves, same, part, made⟩ := settled
        exact ⟨ct, stands, leaves, a.covers.delivers a.sound.wired a.isOf inside fit same part made⟩
    | error err =>
        obtain ⟨rfl, cause⟩ := settled
        dsimp only
        by_cases recoverable : err.isRecoverable = true
        · rw [if_pos (by simp [recoverable, a.fallback])]
          refine .bind (P := fun own _ => own = []) (.change fun r _ => ?_) ?_
          · exact ⟨[], ⟨fun rest equips => equips.recordFallback, rfl⟩, rfl⟩
          · rintro own - rfl
            exact processor _ _
        · rw [if_neg (by simp [recoverable])]
          exact ⟨rfl, computed (cause.resolve_left recoverable)⟩

/-- A node reads its inputs, and gives a buffer that belongs into its slot, or fails with a table that
does not fit. -/
theorem tracks_perform (a : Assisted e p ring) {supplied : List (ValueId × Value)}
    (inside : i < p.graph.size)
    (supplies : p.Supplies (Holding .ciphertext (p.graph.Delivers e supplied ring ids.Nodup)) i
      inputs) :
    (perform e p i).Tracks (Run.Ready (e.Equips ring ids) inputs) (Run.Trades (e.Equips ring ids))
      (Performed.Gives p (e.Equips ring ids)
        (Holding .ciphertext (p.graph.Delivers e supplied ring ids.Nodup))
        (fun i => (p.graph.node i).Misfits e) i) [] := by
  obtain ⟨q, known⟩ := a.covers.partition i inside
  obtain ⟨words, fit, stands⟩ := supplies.exists_words
  dsimp only [perform]
  rw [known, ← supplies.slots]
  refine .bind (P := fun own r => own = [] ∧ r = .ok (inputs.map Shelved.buffer)) ?_ ?_
  · refine Job.Ensures.tracks (ensures_readInputs_shelved fun x => id) (fun r ready => ready.2)
      (fun r r' _ same => ?_) fun r settled => ?_
    · exact same ▸ ⟨fun _ => id, rfl⟩
    · cases r with
      | ok bs => exact ⟨rfl, congrArg _ settled⟩
      | error err => exact settled.elim
  · rintro own r ⟨rfl, rfl⟩
    refine .bind (a.tracks_runOn inside known fit stands) ?_
    rintro own ⟨result, placement, fellBack⟩ hands
    refine ⟨rfl, ?_⟩
    cases result with
    | error err =>
        obtain ⟨rfl, misfits⟩ := hands
        exact ⟨fun _ _ => id, misfits⟩
    | ok payload =>
        obtain ⟨ct, stands, leaves, delivers⟩ := hands
        refine ⟨own, fun _ _ => id, ⟨.ciphertext ct, stands, ct, rfl, delivers⟩, fun resident => ?_⟩
        obtain ⟨place, found⟩ := Option.isSome_iff_exists.mp resident
        refine ⟨i, leaves place ?_, rfl⟩
        cases payload with
        | host v => contradiction
        | device place' => exact congrArg _ (Option.some.inj found)

end Node

/-! ## the call -/

section Call

variable {e : Environment} {p : Plan} {ring : Partition → KeySet}

/-- Devices and processor together as a backend: what stands in a slot is what its graph delivers, and
nodes fail with tables that do not fit. -/
def conduct (a : Assisted e p ring) (supplied : List (ValueId × Value)) (ids : List DeviceId) :
    Conduct e p where
  kept := e.Equips ring ids
  good := Holding .ciphertext (p.graph.Delivers e supplied ring ids.Nodup)
  bad i := (p.graph.node i).Misfits e
  perm _ _ _ same equips := equips.perm same
  withCancellation _ _ _ equips := equips.congr rfl rfl
  announce _ _ _ equips := equips.congr rfl rfl
  drop _ _ _ _ payload equips := equips.drop payload
  perform i alive _ supplies := a.tracks_perform (a.sound.live_lt i alive) supplies

/-- Bound arguments are what the arguments deliver. -/
theorem admits (a : Assisted e p ring) (supplied : List (ValueId × Value)) (ids : List DeviceId) :
    Stock.Admits e p supplied (a.conduct supplied ids).good := by
  intro k v partition b found _ bound
  obtain ⟨ct, payload, delivers⟩ :=
    a.sound.wired.delivers_argument (.inr a.accelerator) found bound
  exact ⟨.ciphertext ct, payload, ct, rfl, delivers⟩

/-- No node waits for anything while it runs. -/
theorem neverWaits (a : Assisted e p ring) : p.NeverWaits e := by
  intro i _
  refine direct_perform fun q bs => ?_
  rcases a.target (p.graph.node i) with cpu | accelerator
  · rw [cpu]
    exact .bind (direct_runOnProcessor q bs) fun _ => .pure
  · rw [accelerator]
    have device : (runOnDevice e p i (p.graph.node i) q bs).Direct :=
      .bind (direct_keysFor q) fun _ => .bind (.lift (.within (Inventory.direct_operate _ _ _ _ _)))
        fun _ => .ofOutcome
    refine Job.Direct.bind device fun r => ?_
    cases r with
    | ok out => exact .pure
    | error err =>
        dsimp only
        split
        · exact .bind .change fun _ => .bind (direct_runOnProcessor q bs) fun _ => .pure
        · exact .pure

end Call

end Assisted

end HomCircuit
