import HomCircuit.Proofs.Context.Legacy
import HomCircuit.Proofs.Program.Nonces
import HomCircuit.Proofs.Program.Outputs

/-!
# HomCircuit.Proofs.Program.Shape

The lengths of the ciphertexts that a call returns, on the processor and on devices, whatever becomes of
devices meanwhile and however workers take turns.

```
argument             the length of its partition, or it is refused
result of a node     the length of the partition of the keys that it was made with
```

A device may have been handed other words than those of the inputs; the length of its result depends on the
keys alone. So nothing has to be known of devices but that they have the reference arithmetic.

* `Resources.Standalone` — reference arithmetic on every device, and no remote workers;
* `Node.Ran.length` — what a node was given has the length of its partition;
* `Plan.stored_shaped` — whatever is put in a slot has the length of the slot's partition;
* `Program.Checked.runs_shaped` — so have the values that a call of a program returns.
-/

namespace HomCircuit

/-! ## resources -/

/-- There are no remote workers, and all devices have the reference arithmetic and have given no number
twice. -/
structure Resources.Standalone (r : Resources) : Prop where
  remotes : r.remotes = []
  numbered : r.devices.Numbered
  reference : ∀ i < r.devices.devices.size, (r.devices.device i).primitives = .reference

theorem Resources.Standalone.inOrder {r : Resources} (alone : r.Standalone)
    {asked : Partition → Prop} : r.InOrder asked :=
  ⟨alone.numbered, by simp [alone.remotes]⟩

/-- They stay so while devices are used. -/
theorem Resources.Standalone.later {r r' : Resources} (alone : r.Standalone)
    (later : r.devices.Later r'.devices) (same : r'.remotes = r.remotes) : r'.Standalone where
  remotes := same.trans alone.remotes
  numbered i inside := by
    rw [later.size] at inside
    exact (later.device i inside).numbered (alone.numbered i inside)
  reference i inside := by
    rw [later.size] at inside
    exact (later.device i inside).primitives.trans (alone.reference i inside)

/-- And so they do in a call. -/
theorem Environment.sustains_standalone (e : Environment) : e.Sustains Resources.Standalone where
  fetchKeys _ _ _ now := ⟨now.remotes, now.numbered, now.reference⟩
  announce _ _ now := ⟨now.remotes, now.numbered, now.reference⟩
  remotes _ _ _ _ there _ now := by simp [now.remotes] at there
  inventory _ _ later now := now.later later rfl

/-- Whatever happens to a context of this kind, it remains one. -/
theorem Context.Reaches.standalone {asked : Partition → Prop} {c c' : Context}
    (history : c.Reaches asked c') (alone : c.resources.Standalone) : c'.resources.Standalone := by
  refine history.keeps (P := fun d => d.resources.Standalone) (fun before after now step => ?_) alone
  cases step with
  | register q => exact now
  | switch i faulted => exact now.later (before.resources.later_switch i faulted) rfl
  | call _ _ _ ends =>
      exact ends.sustains (Environment.sustains_standalone _)
        (fun _ _ _ now => ⟨now.remotes, now.numbered, now.reference⟩) now
  | _ => exact ⟨now.remotes, now.numbered, now.reference⟩

/-- A fresh context without remote workers, on the reference arithmetic. -/
theorem Context.standalone_create {o : ContextOptions} (unaided : o.remoteWorkers = 0) {c : Context}
    (fresh : create o .reference [] = .ok c) : c.resources.Standalone := by
  obtain ⟨-, -, rfl⟩ := Except.exists_of_map fresh
  let v := (inventory? o .reference []).getD default
  have all : ∀ i < v.devices.size, (v.device i).Numbered ∧ (v.device i).primitives = .reference := by
    unfold v
    cases found : inventory? o .reference [] with
    | none => exact nofun
    | some v =>
        refine forall_device (P := fun d => d.Numbered ∧ d.primitives = .reference) found
          (fun d mem => ?_) nofun
        obtain ⟨k, -, rfl⟩ := List.mem_map.mp mem
        exact ⟨nofun, rfl⟩
  exact ⟨by simp [unaided], fun i inside => (all i inside).1, fun i inside => (all i inside).2⟩

/-- A call keeps key sets that are handed out as they may be. -/
theorem Environment.sustains_handsOut (e : Environment) (handed : Partition → KeySet → Prop) :
    e.Sustains (e.HandsOut handed) where
  fetchKeys _ mem _ now := (KeyCache.Answers.getOrCreate now mem).2
  announce _ _ now := now
  remotes _ _ _ _ _ _ now := now
  inventory _ _ _ now := now

section Call

variable {e : Environment} {p : Plan} {handed : Partition → KeySet → Prop}

/-- At whatever moment of a call, its key manager hands out what it handed out when the call began. -/
theorem Plan.handed_of_handsOut {run : Run} (keys : e.HandsOut handed run.resources) {workers : Nat}
    {ms : List Move} {q : Partition} (known : q ∈ e.partitions.partitions) {k : KeySet}
    (h : p.Handed e run workers ms q k) : handed q k := by
  obtain ⟨before, -, shared, answered, rfl⟩ := h
  have began : (Plan.crew run workers).Sustained (e.HandsOut handed) := .initial keys _
  have outside : ∀ o ∈ before.map Occurrence.move, ∀ r : Resources, e.HandsOut handed r →
      e.HandsOut handed (r.withCancellation o.cancels) := fun _ _ _ now => now
  have now := (began.occurs (p := p) (e.sustains_handsOut handed) outside).now
  rw [Crew.occurs_moves, ← p.crew_chronicle] at now
  exact (KeyCache.Answers.getOrCreate now known).1 shared answered

/-! ## nodes -/

/-- What a node was given has the length of its partition, whatever it was made of. -/
theorem Node.Ran.length {r : Resources} {asked : Partition → Prop} {n : Node}
    {words onHost : List Ciphertext} {place : Placement} {ct : Ciphertext}
    (h : n.Ran e r asked handed words onHost place ct) (alone : r.Standalone)
    (reference : e.primitives = .reference)
    (isOf : ∀ q ∈ e.partitions.partitions, ∀ k, handed q k → k.IsOf q) {q from_ : Partition}
    (known : e.partition n.partition = .ok q) (foreign : e.partition n.inputPartition = .ok from_) :
    ct.length = q.ciphertextLength := by
  obtain @⟨ps, q', source, ⟨own, other⟩, given, offers, known', found, output, input, -, made⟩ := h
  obtain rfl := Except.ok.inj (known.symm.trans known')
  -- wherever it ran, it ran with keys that were handed out
  obtain ⟨rfl, output, input⟩ : ps = .reference ∧ handed q own ∧ Option.Rel handed source other := by
    cases offers with
    | cpu => exact ⟨reference, output, input⟩
    | accelerator inside => exact ⟨alone.reference _ inside, output, input⟩
    | remote there => simp [alone.remotes] at there
  have inputs : Option.Rel (fun q (k : KeySet) => k.IsOf q) source other := by
    cases input with
    | none => exact .none
    | some there => exact .some (isOf _ (mem_of_sourcePartition found) _ there)
  have outputs := isOf q (Environment.mem_of_partition known) _ output
  obtain ⟨k, keyed, isOf'⟩ := sourceKeys_of_rel known foreign found outputs inputs
  have ran : Primitive.run n.op given ⟨own, other⟩ (nodeNonce n.id (place.sees words onHost)) =
      .ok ct := by
    change Outcome.ofExcept (Primitive.run n.op given ⟨own, other⟩ _) = _ at made
    cases result : Primitive.run n.op given ⟨own, other⟩
        (nodeNonce n.id (place.sees words onHost)) with
    | ok ct' => simpa [result, Outcome.ofExcept] using made
    | error err => simp [result, Outcome.ofExcept] at made
  exact Primitive.length_of_run outputs keyed isOf' ran

/-! ## slots -/

/-- Where values are encrypted, arguments are bound as ciphertexts of the lengths of their partitions. -/
theorem Stock.admits_shaped (encrypts : e.mode ≠ .simulation) (supplied : List (ValueId × Value)) :
    Stock.Admits e p supplied (Holding .ciphertext (e.Shaped p.graph)) := by
  cases mode : e.mode with
  | simulation => exact absurd mode encrypts
  | cpu => exact Stock.admits_shapes mode
  | accelerator =>
      intro k v partition b found reads bound
      rw [Run.argument_accelerator mode] at bound
      exact Stock.admits_shapes (e := { e with mode := .cpu }) rfl k v partition b found reads bound

/-- In every interleaving, what is put in a slot and is on the host is a ciphertext of the length of the
slot's partition. -/
theorem Plan.stored_shaped (sound : p.Sound) (covers : e.Covers p.graph)
    (encrypts : e.mode ≠ .simulation) (reference : e.primitives = .reference)
    {supplied : List (ValueId × Value)} {resources : Resources} {run : Run}
    (alone : resources.Standalone) (keys : e.HandsOut (fun q k => k.IsOf q) resources)
    (bound : Run.bind e p supplied p.graph.arguments.toList (Run.initial p resources) =
      (.ok (), run)) (workers : Nat) (ms : List Move) {slot : Nat} {b : Buffer} {x : Value}
    (stored : (p.chronicle e run workers ms).history.stored? p run slot = some b)
    (host : b.payload = .host x) : ∃ ct, x = .ciphertext ct ∧ e.Shaped p.graph slot ct := by
  obtain ⟨-, same⟩ := Run.begun_of_bind sound bound
  cases produced : p.graph.producer? slot with
  | none =>
      -- an argument
      rw [History.stored?, produced] at stored
      obtain ⟨⟨shelf, stock, hosts⟩, -⟩ := Stock.bind sound.wired sound.reads_lt
        p.consumers_eq_readsLeft (Stock.admits_shaped encrypts supplied) bound
      obtain ⟨y, mem, rfl⟩ := List.mem_map.mp (stock.only slot b stored)
      obtain rfl := Option.some.inj ((stock.found y mem).symm.trans stored)
      obtain ⟨v, stands, ct, rfl, shaped⟩ := (stock.fits y mem).stands
      have nothing : y.deposits = [] := List.flatMap_eq_nil_iff.mp hosts y mem
      rw [nothing] at stands
      have there := stands.eq_host
      rw [host] at there
      exact ⟨ct, Payload.host.inj there, shaped⟩
  | some i =>
      -- the result of a node
      obtain ⟨inside, rfl⟩ := Plan.producer?_lt produced
      have anyone : e.Within fun _ => True := fun _ _ _ => trivial
      obtain ⟨known, recounts⟩ := Plan.recounts sound encrypts anyone alone.inOrder bound workers ms
      obtain ⟨content, -, ran⟩ := recounts.exists_content
      rw [History.stored?, produced] at stored
      obtain ⟨front, back, split, -⟩ := List.lookup_eq_some_iff.mp stored
      have mem : (i, b) ∈ (p.chronicle e run workers ms).history.before.results := by simp [split]
      obtain ⟨⟨j, done⟩, settled, result⟩ := List.mem_filterMap.mp mem
      obtain ⟨made, ok, pair⟩ := Option.map_eq_some_iff.mp result
      obtain ⟨rfl, rfl⟩ := Prod.mk.inj pair
      have there : (j, done) ∈ (p.chronicle e run workers ms).history.settled :=
        History.mem_settled.mpr ((List.takeWhile_prefix _).subset (History.mem_settled.mp settled))
      obtain ⟨-, ct, reads, ran⟩ := ran (j, done) there made (Except.eq_ok_of_toOption ok)
      rcases reads.cases with onHost | ⟨place, device, -⟩
      · rw [host] at onHost
        obtain ⟨q, partition⟩ := covers.partition j inside
        obtain ⟨from_, foreign⟩ := covers.inputPartition j inside
        refine ⟨ct, Payload.host.inj onHost, q, ?_, ran.length (same ▸ alone) reference
          (fun q mem k handed => Plan.handed_of_handsOut (same ▸ keys) mem handed) partition foreign⟩
        rw [Graph.slotPartition_outputSlot inside, partition]
      · rw [host] at device
        contradiction

end Call

/-! ## calls of programs -/

namespace Program

variable {p : Program} {inputs : List Value} {o : CallChoice} {c : Context}

/-- What a call of a program returns in a context that encrypts, where key sets are those of their
partitions, has the lengths of the partitions of its values. -/
theorem Checked.runs_shaped (checked : p.Checked) (encrypts : c.mode ≠ .simulation)
    (reference : c.primitives = .reference) (alone : c.resources.Standalone)
    (keys : c.resources.keys.Answers p.partitions c.options.seed fun q k => k.IsOf q) {a : Answer}
    {r : Except RunError (List Value) × Trace × Context} (h : p.Runs inputs o c a r)
    {xs : List Value} (ok : r.1 = .ok xs) :
    List.Forall₂ (fun v x => ∃ slot q ct, p.graph.slot? v = some slot ∧
      p.partitions.get? (p.graph.slotPartition slot) = some q ∧ x = .ciphertext ct ∧
      ct.length = q.ciphertextLength) (p.wanted o) xs := by
  obtain ⟨executes, rfl⟩ := h
  obtain ⟨values, answered, picked⟩ := Except.exists_of_bind ok
  obtain ⟨plan, run, workers, ms, prepared, bound, rfl⟩ := executes.exists_final answered
  obtain ⟨cancellation, same⟩ := c.exists_begin o.token
  obtain ⟨sound, graph, -⟩ := Plan.sound_of_prepare checked.wired prepared
  generalize t_eq : (c.begin o.token).1 = t at bound answered
  simp only [same] at bound answered
  let e := c.environment p.partitions t
  change Run.bind e plan _ _ _ = _ at bound
  have covers : e.Covers plan.graph := graph ▸ checked.covers rfl
  have ledger := Ledger.crew (C := Conduct.confined e plan) sound trivial Stock.admits_confined bound
    workers ms
  have held := Run.finish_holds sound ledger answered
  refine (forall₂_pick picked).imp fun v x mem => ?_
  obtain ⟨k, lt, eq⟩ := List.getElem_of_mem mem
  have lt' : k < plan.requested.length := by rwa [held.length_eq]
  obtain ⟨name, slot, b, place, found, host⟩ := List.Forall₂.get held lt' lt
  simp only [List.get_eq_getElem, eq] at name place host
  obtain ⟨begun, -⟩ := Run.begun_of_bind sound bound
  obtain ⟨posts, manned⟩ := Plan.valid_chronicle sound begun workers ms
  have stored := (manned.course.shelves sound begun).found slot
  rw [← plan.crew_chronicle] at found
  rw [show (plan.chronicle e run workers ms).run.arena.get? slot = some b from found] at stored
  split at stored
  · have alone' : ({ c.resources with cancellation } : Resources).Standalone :=
      ⟨alone.remotes, alone.numbered, alone.reference⟩
    obtain ⟨ct, rfl, q, known, length⟩ := Plan.stored_shaped sound covers encrypts reference alone' keys
      bound workers ms stored.symm host
    rw [← name, graph] at place
    rw [graph] at known
    exact ⟨slot, q, ct, place, Environment.get?_of_partition known, rfl, length⟩
  · contradiction

end Program

end HomCircuit
