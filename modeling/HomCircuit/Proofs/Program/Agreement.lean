import HomCircuit.Proofs.Key.Decoding
import HomCircuit.Proofs.Program.Safety
import HomCircuit.Proofs.Schedule.Evaluation
import HomCircuit.Proofs.Schedule.Shadows

/-!
# HomCircuit.Proofs.Program.Agreement

A program gives the same messages on the processor and on stand-ins.

```
processor     ciphertexts  ──decrypt──▸  messages
stand-ins     shadows      ────────────▸  the same, while phases stay near them
```

Both backends fail in the same calls: exactly when a live lookup has a table that does not fit.

* `Program.Evaluates`, `Program.Simulates` — what the values of a program come to on either backend;
* `Program.Near` — the noise of a value does not reach the next message;
* `Program.call_agrees` — the two agree, in every interleaving of either.
-/

namespace HomCircuit

/-! ## how a call ends -/

/-- A result tells that the call was cancelled. -/
def WasCancelled {α : Type} (r : Except RunError α) : Prop :=
  ∃ skipped, r = .error (.graphCancelled .cancelled none skipped)

/-- A result tells that a node failed. -/
def NodeFailed {α : Type} (r : Except RunError α) : Prop :=
  ∃ cause node skipped, r = .error (.graphCancelled cause (some node) skipped)

section Ends

variable {e : Environment} {p : Plan} {C : Conduct e p} {answer : Answer}

/-- A call whose nodes fail for one reason alone was cancelled, or failed for this reason, or answered
without it. -/
theorem Answer.Keeps.ends (kept : answer.Keeps C) {misfit : Nat → Prop}
    (unfit : ∀ i, p.isLive i = true → misfit i → ∀ v, ¬C.good (p.graph.outputSlot i) v)
    (blame : ∀ i, p.isLive i = true → ∀ err, C.bad i err → misfit i) :
    WasCancelled answer.1 ∨
      (NodeFailed answer.1 ∧ ∃ i, p.isLive i = true ∧ misfit i) ∨
      (∃ values, answer.1 = .ok values) ∧ ¬∃ i, p.isLive i = true ∧ misfit i := by
  obtain ⟨-, told⟩ := kept
  cases result : answer.1 with
  | error err =>
      rw [result] at told
      obtain ⟨f, skipped, rfl | ⟨i, alive, bad, node⟩, rfl⟩ := told
      · exact .inl ⟨skipped, rfl⟩
      · exact .inr (.inl ⟨⟨f.error, _, skipped, by rw [node]⟩, i, alive, blame i alive _ bad⟩)
  | ok values =>
      rw [result] at told
      obtain ⟨-, given, -⟩ := told
      refine .inr (.inr ⟨⟨values, rfl⟩, ?_⟩)
      rintro ⟨i, alive, misfits⟩
      obtain ⟨v, good⟩ := given i alive
      exact unfit i alive misfits v good

/-- Unless it was cancelled, a call has a node that failed exactly when there is a reason. -/
theorem Answer.Keeps.nodeFailed_iff (kept : answer.Keeps C) {misfit : Nat → Prop}
    (unfit : ∀ i, p.isLive i = true → misfit i → ∀ v, ¬C.good (p.graph.outputSlot i) v)
    (blame : ∀ i, p.isLive i = true → ∀ err, C.bad i err → misfit i)
    (uncancelled : ¬WasCancelled answer.1) :
    NodeFailed answer.1 ↔ ∃ i, p.isLive i = true ∧ misfit i := by
  rcases kept.ends unfit blame with cancelled | ⟨failed, misfit⟩ | ⟨⟨values, ok⟩, fits⟩
  · exact absurd cancelled uncancelled
  · exact ⟨fun _ => misfit, fun _ => failed⟩
  · refine ⟨?_, fun misfit => absurd misfit fits⟩
    rintro ⟨cause, node, skipped, failed⟩
    rw [ok] at failed
    contradiction

end Ends

/-! ## shapes of evaluated ciphertexts -/

section Shapes

variable {e : Environment} {g : Graph} {supplied : List (ValueId × Value)}
  {ring : Partition → KeySet}

/-- What a value evaluates to has the shape of its slot. -/
theorem Graph.Evaluates.shaped (covers : e.Covers g) (w : g.Wired) (processor : e.mode = .cpu)
    (isOf : ∀ q ∈ e.partitions.partitions, (ring q).IsOf q) {v : ValueId} {ct : Ciphertext}
    (h : g.Evaluates e supplied ring v ct) : ∀ slot, g.slot? v = some slot → e.Shaped g slot ct := by
  refine Denotes.fits w ?_ ?_ h
  · intro k a ct found bound
    obtain ⟨q, ct', known, same, length⟩ := Run.argument_processor processor bound
    obtain rfl : ct = ct' := by simpa [Buffer.ofHost] using same
    exact ⟨q, by rw [slotPartition_argument found, known], length⟩
  · intro i inside words ct read computed
    exact covers.settles w inside read (computed.mono fun q mem k same => same ▸ isOf q mem)

/-- Words that the inputs of a node evaluate to have the shapes of its slots. -/
theorem Graph.Evaluates.shaped_inputs (covers : e.Covers g) (w : g.Wired)
    (processor : e.mode = .cpu) (isOf : ∀ q ∈ e.partitions.partitions, (ring q).IsOf q) {i : Nat}
    (inside : i < g.size) {words : List Ciphertext}
    (read : List.Forall₂ (g.Evaluates e supplied ring) (g.node i).inputs words) :
    List.Forall₂ (e.Shaped g) (g.inputsOf i) words := by
  rw [← w.inputs_values i inside, List.forall₂_map_left_iff] at read
  have placed := (List.forall₂_and_left _ _).mpr
    ⟨fun slot mem => w.slot?_valueAt (w.inputs_lt i slot mem).2, read⟩
  exact placed.imp fun slot ct both => both.2.shaped covers w processor isOf slot both.1

/-- A node of a covered graph fails only with a table that does not fit. -/
theorem Graph.Fails.hasMisfit (covers : e.Covers g) (w : g.Wired) (processor : e.mode = .cpu)
    (isOf : ∀ q ∈ e.partitions.partitions, (ring q).IsOf q) {i : Nat} (inside : i < g.size)
    {err : RunError} (h : g.Fails e supplied ring (g.node i) err) : (g.node i).HasMisfit e := by
  rcases h with unknown | ⟨words, read, computed⟩
  · obtain ⟨q, known⟩ := covers.partition i inside
    rw [known] at unknown
    contradiction
  · have shaped := Graph.Evaluates.shaped_inputs covers w processor isOf inside read
    have misfits : (g.node i).Misfits e err :=
      covers.settles w inside shaped (computed.mono fun q mem k same => same ▸ isOf q mem)
    exact misfits.hasMisfit covers.valid

/-- A node with a table that does not fit evaluates to nothing. -/
theorem Node.HasMisfit.not_evaluates (w : g.Wired)
    (isOf : ∀ q ∈ e.partitions.partitions, (ring q).IsOf q) {i : Nat} (inside : i < g.size)
    (misfit : (g.node i).HasMisfit e) (ct : Ciphertext) :
    ¬g.Evaluates e supplied ring (g.node i).output ct := by
  intro evaluates
  obtain ⟨words, -, computed⟩ := Graph.Denotes.inputs w (Graph.node_mem inside) evaluates
  have isOf' : ∀ q ∈ e.partitions.partitions, ∀ k, k = ring q → k.IsOf q :=
    fun q mem k same => same ▸ isOf q mem
  exact misfit.not_computes isOf' computed

/-- A node with a table that does not fit has no stand-in. -/
theorem Node.HasMisfit.not_simulated (w : g.Wired) {i : Nat} (inside : i < g.size)
    (misfit : (g.node i).HasMisfit e) (s : Simulated) :
    ¬g.Simulates e supplied (g.node i).output s := by
  intro simulates
  obtain ⟨stand, -, simulated⟩ := Graph.Denotes.inputs w (Graph.node_mem inside) simulates
  exact misfit.not_simulates simulated

end Shapes

/-! ## one evaluation for all tokens -/

section Token

variable {g : Graph} {supplied : List (ValueId × Value)} {ring : Partition → KeySet}

/-- What a graph evaluates to depends on the partitions and the mode alone. -/
theorem Graph.Evaluates.congr {e e' : Environment} (partitions : e'.partitions = e.partitions)
    (mode : e'.mode = e.mode) {v : ValueId} {ct : Ciphertext}
    (h : g.Evaluates e supplied ring v ct) : g.Evaluates e' supplied ring v ct := by
  have known (id : PartitionId) : e'.partition id = e.partition id := by
    simp only [Environment.partition, partitions]
  have source (n : Node) : sourcePartition e' n = sourcePartition e n := by
    simp only [sourcePartition, known]
  refine Denotes.mono (fun v partition ct bound => ?_) (fun n words ct computed => ?_) h
  · simpa only [Run.BindsTo, Run.argument, known, mode] using bound
  · generalize result : Except.ok ct = r at computed ⊢
    cases computed with
    | unknown unknown => exact .unknown ((known _).trans unknown)
    | unknownSource unknown => exact .unknownSource ((source n).trans unknown)
    | refused member invalid => exact .refused (partitions ▸ member) invalid
    | ran found foreign own other =>
        exact .ran ((known _).trans found) ((source n).trans foreign) own other

/-- What a graph comes to on stand-ins depends on the partitions and the mode alone. -/
theorem Graph.Simulates.congr {e e' : Environment} (partitions : e'.partitions = e.partitions)
    (mode : e'.mode = e.mode) {v : ValueId} {s : Simulated} (h : g.Simulates e supplied v s) :
    g.Simulates e' supplied v s := by
  have known (id : PartitionId) : e'.partition id = e.partition id := by
    simp only [Environment.partition, partitions]
  refine Denotes.mono (fun v partition s bound => ?_) (fun n stand s made => ?_) h
  · simpa only [Run.argument, known, mode] using bound
  · simpa only [Node.simulate, known] using made

end Token

/-! ## picking and decrypting -/

namespace Program

/-- Values that are picked are among those that there are. -/
theorem forall₂_pick {values : List (ValueId × Value)} {ids : List ValueId} {xs : List Value}
    (h : pick values ids = .ok xs) : List.Forall₂ (fun v x => (v, x) ∈ values) ids xs := by
  induction ids generalizing values xs with
  | nil =>
      obtain rfl := Except.ok.inj h
      exact .nil
  | cons v rest ih =>
      simp only [pick] at h
      split at h
      · contradiction
      · rename_i x found
        obtain ⟨others, picked, rfl⟩ := Except.exists_of_map h
        obtain ⟨front, back, split, -⟩ := List.lookup_eq_some_iff.mp found
        refine .cons (by rw [split]; simp) ((ih picked).imp fun v x mem => ?_)
        exact List.mem_of_mem_filter mem

/-- Picking fails for want of a value only. -/
theorem pick_error {values : List (ValueId × Value)} {ids : List ValueId} {err : RunError}
    (h : pick values ids = .error err) : ∃ v, err = .unknownValue v := by
  induction ids generalizing values with
  | nil => contradiction
  | cons v rest ih =>
      simp only [pick] at h
      split at h
      · exact ⟨v, (Except.error.inj h).symm⟩
      · cases picked : pick (values.filter (·.1 ≠ v)) rest with
        | ok xs =>
            rw [picked] at h
            contradiction
        | error err' =>
            rw [picked] at h
            obtain rfl := Except.error.inj h
            exact ih picked

/-- Whether values can be picked depends on their names alone. -/
theorem pick_ok_congr {values values' : List (ValueId × Value)}
    (same : values'.map (·.1) = values.map (·.1)) {ids : List ValueId} {xs : List Value}
    (h : pick values ids = .ok xs) : ∃ xs', pick values' ids = .ok xs' := by
  induction ids generalizing values values' xs with
  | nil => exact ⟨[], rfl⟩
  | cons v rest ih =>
      simp only [pick] at h ⊢
      split at h
      · contradiction
      · rename_i x found
        obtain ⟨others, picked, rfl⟩ := Except.exists_of_map h
        obtain ⟨front, back, split, -⟩ := List.lookup_eq_some_iff.mp found
        have named : v ∈ values'.map (·.1) := by
          rw [same, split]
          simp
        have left : (values'.filter (·.1 ≠ v)).map (·.1) = (values.filter (·.1 ≠ v)).map (·.1) := by
          have names (l : List (ValueId × Value)) :
              (l.filter (·.1 ≠ v)).map (·.1) = (l.map (·.1)).filter (· ≠ v) := by
            rw [List.filter_map]
            rfl
          rw [names, names, same]
        obtain ⟨others', picked'⟩ := ih left picked
        cases found' : values'.lookup v with
        | none =>
            obtain ⟨q, mem, rfl⟩ := List.mem_map.mp named
            simpa using List.lookup_eq_none_iff.mp found' q mem
        | some x' => exact ⟨x' :: others', by simp only [picked', Except.map]⟩

/-- Picking values does not touch how a call ended. -/
theorem nodeFailed_pick {r : Except RunError (List (ValueId × Value))} {ids : List ValueId} :
    NodeFailed (r.bind (pick · ids)) ↔ NodeFailed r := by
  cases r with
  | error err => simp [NodeFailed, Except.bind]
  | ok values =>
      refine ⟨?_, ?_⟩
      · rintro ⟨cause, node, skipped, failed⟩
        obtain ⟨v, same⟩ := pick_error failed
        contradiction
      · rintro ⟨cause, node, skipped, failed⟩
        contradiction

theorem wasCancelled_pick {r : Except RunError (List (ValueId × Value))} {ids : List ValueId}
    (h : WasCancelled r) : WasCancelled (r.bind (pick · ids)) := by
  obtain ⟨skipped, rfl⟩ := h
  exact ⟨skipped, rfl⟩

variable {p : Program}

/-- Values that decrypt one by one decrypt together. -/
theorem decryptAll_ok {kept : Context → Prop} {message : ValueId → UInt64 → Prop}
    {ids : List ValueId} {xs : List Value}
    (each : List.Forall₂ (fun v x => ∃ m, message v m ∧
      ∀ c, kept c → ∃ c', p.decryptValue v x c = (.ok m, c') ∧ kept c') ids xs)
    {c : Context} (h : kept c) :
    ∃ ms c', p.decryptAll (ids.zip xs) c = (.ok ms, c') ∧ List.Forall₂ message ids ms := by
  induction each generalizing c with
  | nil => exact ⟨[], c, rfl, .nil⟩
  | cons first rest ih =>
      obtain ⟨m, told, decrypts⟩ := first
      obtain ⟨c', decrypted, h'⟩ := decrypts c h
      obtain ⟨ms, c'', others, all⟩ := ih h'
      refine ⟨m :: ms, c'', ?_, .cons told all⟩
      simp only [List.zip_cons_cons, decryptAll, decrypted, others]
      rfl

theorem decryptOutputs_eq {xs : List Value} {c : Context} (count : xs.length = p.outputs.length) :
    p.decryptOutputs xs c = p.decryptAll (p.outputs.zip xs) c := by
  rw [decryptOutputs, if_neg (not_not.mpr count)]

/-- The keys of a context whose key manager agrees with itself. -/
theorem keySet_eq {q : Partition} {registry : Registry} {ring : Partition → KeySet} {c : Context}
    (valid : q.Valid) (known : q ∈ registry.partitions)
    (keys : c.resources.keys.Answers registry c.options.seed fun q k => k = ring q) :
    ∃ c', c.keySet q = (.ok (ring q), c') ∧ c'.options = c.options ∧
      c'.resources.keys.Answers registry c.options.seed fun q k => k = ring q := by
  obtain ⟨answer, others⟩ := keys.getOrCreate known
  refine ⟨(c.keySet q).2, Prod.ext ?_ rfl, rfl, others⟩
  change ((c.resources.keys.getOrCreate q c.options.seed).1.map (·.keys)).mapError RunError.ofKey = _
  cases result : (c.resources.keys.getOrCreate q c.options.seed).1 with
  | error err =>
      have refused := KeyCache.getOrCreate_error result
      rw [Partition.validate_eq_ok_iff.mpr valid] at refused
      contradiction
  | ok shared =>
      rw [← answer shared result]
      rfl

/-- A ciphertext near a message decrypts to it. -/
theorem decryptValue_ciphertext {ring : Partition → KeySet} {v : ValueId} {slot : Nat} {q : Partition}
    {ct : Ciphertext} {message phase : UInt64} {c : Context} (sane : p.partitions.Sane)
    (isOf : (ring q).IsOf q) (place : p.graph.slot? v = some slot)
    (known : p.partitions.get? (p.graph.slotPartition slot) = some q)
    (phased : (ring q).phase ct = .ok phase) (near : (ring q).Near message phase)
    (below : message < q.plaintextModulus)
    (keys : c.resources.keys.Answers p.partitions c.options.seed fun q k => k = ring q) :
    ∃ c', p.decryptValue v (.ciphertext ct) c = (.ok message, c') ∧ c'.options = c.options ∧
      c'.resources.keys.Answers p.partitions c.options.seed fun q k => k = ring q := by
  have member := Registry.mem_of_get? known
  have valid := sane.valid q member
  obtain ⟨c', fetched, options, keys'⟩ := keySet_eq valid member keys
  refine ⟨c', ?_, options, keys'⟩
  have decoded : (ring q).decode phase = message := by
    refine KeySet.decode_of_near ?_ ?_ near
    · rwa [isOf.partition]
    · rwa [isOf.partition]
  simp only [decryptValue, place, partition, known, fetched, KeySet.decrypt, phased, Except.bind,
    Except.map, Except.mapError, decoded]

/-- A stand-in below its modulus decrypts to its shadow. -/
theorem decryptValue_simulated {v : ValueId} {slot : Nat} {q : Partition} {s : Simulated}
    {c : Context} (place : p.graph.slot? v = some slot)
    (known : p.partitions.get? (p.graph.slotPartition slot) = some q)
    (below : s.shadow < q.plaintextModulus) :
    p.decryptValue v (.simulated s) c = (.ok s.shadow, c) := by
  have remainder : s.shadow % q.plaintextModulus = s.shadow := by
    refine UInt64.toNat_inj.mp ?_
    rw [UInt64.toNat_mod, Nat.mod_eq_of_lt (UInt64.lt_iff_toNat_lt.mp below)]
  simp only [decryptValue, place, partition, known, remainder]

end Program

/-! ## one call on either backend -/

section Called

variable {e : Environment} {plan : Plan} {C : Conduct e plan} {a : Answer} {ids : List ValueId}

/-- Values that a caller picks from an answer are among those that stood in their slots. -/
theorem Answer.Keeps.picked_values (kept : a.Keeps C) (sound : plan.Sound)
    {R : ValueId → Value → Prop} (same : ∀ slot x, C.good slot x → R (plan.graph.valueAt slot) x)
    {xs : List Value} (ok : a.1.bind (Program.pick · ids) = .ok xs) : List.Forall₂ R ids xs := by
  obtain ⟨values, answered, picked⟩ := Except.exists_of_bind ok
  obtain ⟨-, told⟩ := kept
  rw [answered] at told
  obtain ⟨fits, -, -⟩ := told
  refine (Program.forall₂_pick picked).imp fun v x mem => ?_
  obtain ⟨k, lt, eq⟩ := List.getElem_of_mem mem
  have lt' : k < plan.requested.length := by rwa [fits.length_eq]
  obtain ⟨name, good⟩ := List.Forall₂.get fits lt' lt
  simp only [List.get_eq_getElem, eq] at name good
  have slot := (Graph.valueAt_of_slot? (sound.slots _ (List.getElem_mem lt'))).2
  rw [name, ← slot]
  exact same _ x good

/-- A call in fixed order has started its nodes in this order once it answers. -/
theorem Answer.Keeps.started (kept : a.Keeps C) (fixed : plan.options.deterministic = true)
    {xs : List Value} (ok : a.1.bind (Program.pick · ids) = .ok xs) :
    a.2.1.started = (plan.order.map fun i => (plan.graph.node i).id) := by
  obtain ⟨values, answered, -⟩ := Except.exists_of_bind ok
  have told := kept.2
  rw [answered] at told
  exact told.2.2 fixed

/-- What a caller who picks values from an answer gets. -/
theorem Answer.Keeps.picked (kept : a.Keeps C) (sound : plan.Sound)
    (fixed : plan.options.deterministic = true) {R : ValueId → Value → Prop}
    (same : ∀ slot x, C.good slot x → R (plan.graph.valueAt slot) x) {xs : List Value}
    (ok : a.1.bind (Program.pick · ids) = .ok xs) :
    a.2.1.started = (plan.order.map fun i => (plan.graph.node i).id) ∧ C.kept [] a.2.2 ∧
      List.Forall₂ R ids xs :=
  ⟨kept.started fixed ok, kept.1, kept.picked_values sound same ok⟩

/-- Whether a caller who picks values is told of a failed node. -/
theorem Answer.Keeps.picked_failed (kept : a.Keeps C) {misfit : Nat → Prop}
    (unfit : ∀ i, plan.isLive i = true → misfit i → ∀ v, ¬C.good (plan.graph.outputSlot i) v)
    (blame : ∀ i, plan.isLive i = true → ∀ err, C.bad i err → misfit i)
    (uncancelled : ¬WasCancelled (a.1.bind (Program.pick · ids))) :
    NodeFailed (a.1.bind (Program.pick · ids)) ↔ ∃ i, plan.isLive i = true ∧ misfit i :=
  Program.nodeFailed_pick.trans
    (kept.nodeFailed_iff unfit blame fun cancelled =>
      uncancelled (Program.wasCancelled_pick cancelled))

/-- Values that are answered have the names that were asked for. -/
theorem Answer.Keeps.names (kept : a.Keeps C) {values : List (ValueId × Value)}
    (ok : a.1 = .ok values) : values.map (·.1) = plan.requested.map (·.1) := by
  have told := kept.2
  rw [ok] at told
  rw [← List.forall₂_eq_eq_eq, List.forall₂_map_left_iff, List.forall₂_map_right_iff]
  exact told.1.flip.imp fun x q fits => fits.1

/-- Unless it was cancelled, a caller picks values exactly when no node fails and each value that is
picked was asked for. -/
theorem Answer.Keeps.picked_ok_iff (kept : a.Keeps C) {misfit : Nat → Prop}
    (unfit : ∀ i, plan.isLive i = true → misfit i → ∀ v, ¬C.good (plan.graph.outputSlot i) v)
    (blame : ∀ i, plan.isLive i = true → ∀ err, C.bad i err → misfit i)
    (uncancelled : ¬WasCancelled (a.1.bind (Program.pick · ids))) :
    (∃ xs, a.1.bind (Program.pick · ids) = .ok xs) ↔
      (¬∃ i, plan.isLive i = true ∧ misfit i) ∧
        ∃ xs, Program.pick (plan.requested.map fun q => (q.1, default)) ids = .ok xs := by
  rcases kept.ends unfit blame with cancelled | ⟨⟨cause, n, skipped, failed⟩, misfit⟩ | ⟨⟨values, ok⟩, fits⟩
  · exact absurd (Program.wasCancelled_pick cancelled) uncancelled
  · rw [failed]
    exact ⟨fun ⟨_, answered⟩ => by contradiction, fun ⟨fits, _⟩ => absurd misfit fits⟩
  · have names : values.map (·.1) =
        (plan.requested.map fun q => (q.1, (default : Value))).map (·.1) := by
      rw [kept.names ok, List.map_map]
      rfl
    rw [ok]
    exact ⟨fun ⟨xs, picked⟩ => ⟨fits, Program.pick_ok_congr names.symm picked⟩,
      fun ⟨_, xs, picked⟩ => Program.pick_ok_congr names picked⟩

end Called

/-! ## calls of programs -/

/-- A call that begins changes the cancellations of its context at most. -/
theorem Context.exists_begin (c : Context) (token : Option CancelToken) :
    ∃ cancellation, (c.begin token).2 =
      { c with resources := { c.resources with cancellation } } := by
  cases token <;> exact ⟨_, rfl⟩

namespace Program

variable {p : Program} {inputs : List Value} {o : CallChoice} {c : Context}
  {r : Except RunError (List Value) × Trace × Context}

/-- A call is refused before its nodes run: it has the wrong number of inputs, or asks for values that
nothing produces. -/
def Refuses (p : Program) (inputs : List Value) (o : CallChoice) (c : Context) : Prop :=
  inputs.length ≠ p.inputs.length ∨
    ∃ err, Plan.prepare p.graph (p.settings o c) false = .error err

theorem resolve_error {g : Graph} {found : List (ValueId × Nat)} {ids : List ValueId}
    {err : RunError} (h : Plan.resolve g found ids = .error err) : ∃ v, err = .unknownValue v := by
  induction ids generalizing found with
  | nil => contradiction
  | cons v rest ih =>
      simp only [Plan.resolve] at h
      split at h
      · exact ⟨v, (Except.error.inj h).symm⟩
      · exact ih h

/-- A plan is refused for want of a value only. -/
theorem prepare_error {g : Graph} {o : CallOptions} {accelerating : Bool} {err : RunError}
    (h : Plan.prepare g o accelerating = .error err) : ∃ v, err = .unknownValue v := by
  unfold Plan.prepare at h
  cases found : Plan.resolve g [] o.requested with
  | error err' =>
      rw [found] at h
      obtain rfl := Except.error.inj h
      exact resolve_error found
  | ok requested =>
      rw [found] at h
      contradiction

/-- A call with inputs of the right number goes on with a call of the graph. -/
theorem MayCall.executed (h : p.MayCall inputs o c r) (home : o.assignment = [])
    (count : inputs.length = p.inputs.length) :
    ∃ t cancellation a,
      ({ c with resources := { c.resources with cancellation } } : Context).MayExecute p.graph
        p.partitions (p.supply inputs) (p.settings o c) t a ∧
      r = (a.1.bind (pick · (p.wanted o)), a.2.1, { c with resources := a.2.2 }) := by
  obtain ⟨cancellation, begun⟩ := c.exists_begin o.token
  unfold MayCall at h
  rw [if_neg (not_not.mpr count), home] at h
  simp only [List.find?_nil] at h
  obtain ⟨a, executed, rfl⟩ := h
  rw [begun] at executed
  refine ⟨_, cancellation, a, executed, ?_⟩
  rw [begun]

/-- Whether there are devices does not matter for what a plan asks for and leaves out. -/
theorem prepare_eq (g : Graph) (o : CallOptions) (accelerating : Bool) :
    Plan.prepare g o accelerating =
      (Plan.prepare g o false).map fun plan => { plan with accelerating } := by
  unfold Plan.prepare
  cases Plan.resolve g [] o.requested <;> rfl

/-- Any other call runs as planned. -/
theorem MayCall.planned (h : p.MayCall inputs o c r) (home : o.assignment = [])
    (live : c.shut = false) (accepts : ¬p.Refuses inputs o c) :
    ∃ plan t cancellation workers a,
      Plan.prepare p.graph (p.settings o c) (c.mode = .accelerator && c.resources.hasDevices) =
        .ok plan ∧
      plan.MayReturn (c.environment p.partitions t) workers (p.supply inputs)
        { c.resources with cancellation } a ∧
      r = (a.1.bind (pick · (p.wanted o)), a.2.1, { c with resources := a.2.2 }) := by
  obtain ⟨count, prepared⟩ := not_or.mp accepts
  obtain ⟨t, cancellation, a, executed, eq⟩ := h.executed home (not_not.mp count)
  cases executed with
  | shut gone => simp [live] at gone
  | @unprepared err _ unprepared =>
      rw [prepare_eq] at unprepared
      cases refused : Plan.prepare p.graph (p.settings o c) false with
      | error err => exact absurd ⟨err, refused⟩ prepared
      | ok plan =>
          rw [refused] at unprepared
          contradiction
  | ran _ prepared returns => exact ⟨_, t, cancellation, _, a, prepared, returns, eq⟩

/-- The error with which a call with so many inputs is refused before its nodes run, if it is. -/
def refusal? (p : Program) (count : Nat) (o : CallChoice) (c : Context) : Option RunError :=
  if count ≠ p.inputs.length then some (p.inputShape count)
  else
    match o.assignment.find? (c.resources.remotes.length ≤ ·.2) with
    | some (_, w) => some (.remote w "no such remote worker")
    | none =>
      if c.shut then some .contextShutDown
      else
        match Plan.prepare p.graph (p.settings o c) false with
        | .error err => some err
        | .ok _ => none

/-- It does not tell that the call was cancelled or that a node failed. -/
theorem refusal?_ends {count : Nat} {err : RunError} (h : p.refusal? count o c = some err)
    {α : Type} (r : Except RunError α) (refused : r = .error err) :
    ¬NodeFailed r ∧ ¬WasCancelled r := by
  have plain : (∃ text, err = .bufferShape text p.inputs.length count) ∨
      (∃ w text, err = .remote w text) ∨ err = .contextShutDown ∨ ∃ v, err = .unknownValue v := by
    unfold refusal? at h
    split at h
    · exact .inl ⟨_, (Option.some.inj h).symm⟩
    · split at h
      · exact .inr (.inl ⟨_, _, (Option.some.inj h).symm⟩)
      · split at h
        · exact .inr (.inr (.inl (Option.some.inj h).symm))
        · split at h
          · rename_i unprepared
            obtain rfl := Option.some.inj h
            exact .inr (.inr (.inr (prepare_error unprepared)))
          · contradiction
  rcases plain with ⟨text, rfl⟩ | ⟨w, text, rfl⟩ | rfl | ⟨v, rfl⟩ <;>
    simp [NodeFailed, WasCancelled, refused]

/-- It depends on the values asked for, on workers that do not exist and on whether the context still
lives. -/
theorem refusal?_congr {d : Context} {o' : CallChoice} (outputs : o'.outputs = o.outputs)
    (missing : o'.assignment.find? (d.resources.remotes.length ≤ ·.2) =
      o.assignment.find? (c.resources.remotes.length ≤ ·.2)) (shut : d.shut = c.shut) (count : Nat) :
    p.refusal? count o' d = p.refusal? count o c := by
  simp only [refusal?, settings, wanted, outputs, missing, shut, Plan.prepare]
  cases Plan.resolve p.graph [] (o.outputs.getD p.outputs) <;> rfl

/-- A call is refused, or runs as planned, on whatever assignment to workers. -/
theorem MayCall.refused_or_ran (h : p.MayCall inputs o c r) (host : c.mode ≠ .accelerator) :
    (∃ err, p.refusal? inputs.length o c = some err ∧ r.1 = .error err) ∨
      (p.refusal? inputs.length o c = none ∧ inputs.length = p.inputs.length ∧
        ∃ plan t cancellation workers a, Plan.prepare p.graph (p.settings o c) false = .ok plan ∧
          plan.MayReturn (c.environment p.partitions t) workers (p.supply inputs)
            { c.resources with cancellation } a ∧
          r = (a.1.bind (pick · (p.wanted o)), a.2.1, { c with resources := a.2.2 })) := by
  obtain ⟨cancellation, begun⟩ := c.exists_begin o.token
  have settings : p.settings o (c.begin o.token).2 = p.settings o c := by
    rw [begun]
    rfl
  have accelerating : (decide (c.mode = .accelerator) && c.resources.hasDevices) = false := by
    simp [host]
  unfold MayCall at h
  unfold refusal?
  by_cases count : inputs.length = p.inputs.length
  · rw [if_neg (not_not.mpr count)] at h ⊢
    cases found : o.assignment.find? (c.resources.remotes.length ≤ ·.2) with
    | some assigned =>
        rw [found] at h
        exact .inl ⟨_, rfl, by rw [h]⟩
    | none =>
        rw [found] at h
        obtain ⟨a, executed, answer⟩ := h
        change (c.begin o.token).2.MayExecute p.graph p.partitions (p.supply inputs)
          (p.settings o (c.begin o.token).2) (c.begin o.token).1 a at executed
        change r = (a.1.bind (pick · (p.wanted o)), a.2.1,
          { (c.begin o.token).2 with resources := a.2.2 }) at answer
        rw [settings, begun] at executed
        rw [begun] at answer
        subst answer
        dsimp only
        cases executed with
        | shut gone => exact .inl ⟨_, if_pos gone, rfl⟩
        | @unprepared err live unprepared =>
            change c.shut = false at live
            change Plan.prepare p.graph _ (c.mode = .accelerator && c.resources.hasDevices) = _
              at unprepared
            rw [accelerating] at unprepared
            exact .inl ⟨err, by simp [live, unprepared], rfl⟩
        | @ran plan workers a live prepared returns =>
            change c.shut = false at live
            change Plan.prepare p.graph _ (c.mode = .accelerator && c.resources.hasDevices) = _
              at prepared
            rw [accelerating] at prepared
            exact .inr ⟨by simp [live, prepared], count, plan, _, cancellation, workers, a, prepared,
              returns, rfl⟩
  · rw [if_pos count] at h ⊢
    exact .inl ⟨_, rfl, by rw [h]⟩

/-- A context without devices of its own plans for the processor. -/
theorem MayCall.ran (h : p.MayCall inputs o c r) (home : o.assignment = []) (live : c.shut = false)
    (host : c.mode ≠ .accelerator) (accepts : ¬p.Refuses inputs o c) :
    ∃ plan t cancellation workers a,
      Plan.prepare p.graph (p.settings o c) false = .ok plan ∧
      plan.MayReturn (c.environment p.partitions t) workers (p.supply inputs)
        { c.resources with cancellation } a ∧
      r = (a.1.bind (pick · (p.wanted o)), a.2.1, { c with resources := a.2.2 }) := by
  have accelerating : (decide (c.mode = .accelerator) && c.resources.hasDevices) = false := by
    simp [host]
  have planned := h.planned home live accepts
  rwa [accelerating] at planned

/-- A call by the clock is one that may happen, if the clock keeps to the schedules of its plan. -/
theorem mayCall_of_returns
    (returns : ∀ plan t cancellation workers,
      Plan.prepare p.graph (p.settings o c) (c.mode = .accelerator && c.resources.hasDevices) =
        .ok plan →
      plan.MayReturn (c.environment p.partitions t) workers (p.supply inputs)
        { c.resources with cancellation }
        (plan.execute (c.environment p.partitions t) workers (p.supply inputs)
          { c.resources with cancellation })) :
    p.MayCall inputs o c (p.callWith inputs o c) := by
  refine mayCall_callWith fun t c' begun => ?_
  obtain ⟨cancellation, same⟩ := c.exists_begin o.token
  rw [begun] at same
  obtain rfl : c' = _ := same
  exact Context.mayExecute_executed fun plan prepared workers =>
    returns plan t cancellation workers prepared

/-- A result tells that something asked for does not exist, or that there are too few or too many
inputs. -/
def Declines {α : Type} (p : Program) (inputs : List Value) (r : Except RunError α) : Prop :=
  r = .error (p.inputShape inputs.length) ∨ ∃ v, r = .error (.unknownValue v)

/-- Then there are no values, and neither a node nor a device has failed. -/
theorem Declines.tells_nothing {α : Type} {r : Except RunError α} (h : p.Declines inputs r) :
    ¬NodeFailed r ∧ (∀ xs, r ≠ .ok xs) ∧
      ∀ err cause, r = .error err → err.rootCause ≠ .device cause := by
  rcases h with rfl | ⟨v, rfl⟩
  · refine ⟨?_, fun _ => nofun, ?_⟩
    · rintro ⟨cause, node, skipped, failed⟩
      simp [inputShape] at failed
    · rintro _ cause ⟨rfl⟩
      exact nofun
  · refine ⟨?_, fun _ => nofun, ?_⟩
    · rintro ⟨cause, node, skipped, failed⟩
      simp at failed
    · rintro _ cause ⟨rfl⟩
      exact nofun

theorem MayCall.declined (h : p.MayCall inputs o c r) (home : o.assignment = [])
    (live : c.shut = false) (refuses : p.Refuses inputs o c) : p.Declines inputs r.1 := by
  by_cases count : inputs.length = p.inputs.length
  · obtain ⟨t, cancellation, a, executed, rfl⟩ := h.executed home count
    obtain ⟨err, refused⟩ := refuses.resolve_left (not_not.mpr count)
    cases executed with
    | shut gone => simp [live] at gone
    | unprepared _ unprepared =>
        obtain ⟨v, rfl⟩ := prepare_error unprepared
        exact .inr ⟨v, rfl⟩
    | ran _ prepared _ =>
        rw [prepare_eq, refused] at prepared
        contradiction
  · unfold MayCall at h
    rw [if_pos count] at h
    exact .inl (by rw [h])

/-- A refused call tells neither values nor a failed node. -/
theorem MayCall.refused (h : p.MayCall inputs o c r) (home : o.assignment = [])
    (live : c.shut = false) (_host : c.mode ≠ .accelerator) (refuses : p.Refuses inputs o c) :
    ¬NodeFailed r.1 ∧ ∀ xs, r.1 ≠ .ok xs := by
  obtain ⟨failed, nothing, -⟩ := (h.declined home live refuses).tells_nothing
  exact ⟨failed, nothing⟩

/-! ### the two backends -/

/-- What the values of a program evaluate to on the processor, under the keys of a ring. -/
def Evaluates (p : Program) (inputs : List Value) (c : Context) (ring : Partition → KeySet) :
    ValueId → Ciphertext → Prop :=
  p.graph.Evaluates (c.environment p.partitions default) (p.supply inputs) ring

/-- What the values of a program come to on stand-ins. -/
def Simulates (p : Program) (inputs : List Value) (c : Context) : ValueId → Simulated → Prop :=
  p.graph.Simulates (c.environment p.partitions default) (p.supply inputs)

/-- A live node of a plan has a table that does not fit. -/
def HasMisfit (p : Program) (plan : Plan) : Prop :=
  ∃ i, plan.isLive i = true ∧
    (plan.graph.node i).HasMisfit { (default : Environment) with partitions := p.partitions }

/-- Supplied messages are messages. -/
theorem supply_clear (clear : ∀ x ∈ inputs, ∃ message, x = .cleartext message) :
    ∀ a ∈ p.supply inputs, ∃ message, a.2 = .cleartext message :=
  fun a mem => clear a.2 (List.of_mem_zip mem).2

/-- Messages, as many as there are inputs, are accepted by position. -/
theorem forall₂_clear {P : PartitionId → Value → Prop} (count : inputs.length = p.inputs.length)
    (all : ∀ x ∈ inputs, ∀ id, P id x) :
    List.Forall₂ (fun input x => P input.2 x) p.inputs inputs := by
  refine List.forall₂_iff_zip.mpr ⟨count.symm, fun {input x} mem => ?_⟩
  exact all x (List.of_mem_zip mem).2 _

/-- Whatever is on the left has something on the right. -/
theorem exists_of_forall₂ {α β : Type} {R : α → β → Prop} {as : List α} {bs : List β}
    (all : List.Forall₂ R as bs) {a : α} (mem : a ∈ as) : ∃ b, R a b := by
  obtain ⟨k, lt, rfl⟩ := List.getElem_of_mem mem
  exact ⟨_, List.Forall₂.get all lt (by rwa [← all.length_eq])⟩

section Backends

variable {plan : Plan} {s : CallOptions} {t : CancelToken} {cancellation : Cancellation}
  {workers : Nat} {a : Answer} (ids : List ValueId)

/-- A planned call on the processor has a node that failed exactly for a misfit, and picks what its
values evaluate to. -/
theorem Checked.picks_evaluated (checked : p.Checked) (processor : c.mode = .cpu)
    (reference : c.primitives = .reference) {ring : Partition → KeySet}
    (isOf : ∀ q ∈ p.partitions.partitions, (ring q).IsOf q)
    (keys : c.resources.keys.Answers p.partitions c.options.seed fun q k => k = ring q)
    (accepted : List.Forall₂ (fun input x => p.Accepts input.2 x) p.inputs inputs)
    (prepared : Plan.prepare p.graph s false = .ok plan) (home : s.assignment = [])
    (returns : plan.MayReturn (c.environment p.partitions t) workers (p.supply inputs)
      { c.resources with cancellation } a) :
    (¬WasCancelled (a.1.bind (pick · ids)) →
      (NodeFailed (a.1.bind (pick · ids)) ↔ p.HasMisfit plan)) ∧
    (a.2.2.keys.Answers p.partitions c.options.seed fun q k => k = ring q) ∧
    ∀ xs, a.1.bind (pick · ids) = .ok xs →
      (plan.options.deterministic = true →
        a.2.1.started = (plan.order.map fun i => (plan.graph.node i).id)) ∧
      List.Forall₂ (fun v x => ∃ ct, x = .ciphertext ct ∧ p.Evaluates inputs c ring v ct) ids xs := by
  obtain ⟨sound, graph, options⟩ := Plan.sound_of_prepare checked.wired prepared
  let e := c.environment p.partitions t
  have covers : e.Covers plan.graph := graph ▸ checked.covers rfl
  have home' : plan.options.assignment = [] := by rw [options, home]
  have represented (v : ValueId) (id : PartitionId) (q : Partition) (x : Value)
      (known : p.partitions.get? id = some q) (accepts : p.Accepts id x) :
      ∃ y, Run.representation e.mode v q x = .ok y := by
    rw [show e.mode = .cpu from processor]
    exact representation_of_accepts known accepts
  obtain ⟨run, bound⟩ := checked.bind_ok (e := e) rfl represented accepted graph
    (Run.initial plan { c.resources with cancellation })
  have handed : e.HandsOut (fun q k => k = ring q) { c.resources with cancellation } := keys
  have kept : a.Keeps
      (Discipline.evaluation sound processor reference home' (p.supply inputs) ring).conduct :=
    returns.keeps sound handed (sound.wired.admits_evaluation processor) bound
  refine ⟨fun uncancelled => kept.picked_failed (fun i alive misfit v => ?_)
    (fun i alive err failed => ?_) uncancelled, kept.1.2, fun xs ok => ⟨fun fixed => ?_, ?_⟩⟩
  · rintro ⟨ct, -, evaluates⟩
    have inside := sound.live_lt i alive
    rw [sound.wired.valueAt_output i inside] at evaluates
    exact Node.HasMisfit.not_evaluates (e := e) sound.wired isOf inside misfit ct evaluates
  · exact Graph.Fails.hasMisfit covers sound.wired processor isOf (sound.live_lt i alive) failed
  · exact kept.started fixed ok
  · refine kept.picked_values sound (R := fun v x => ∃ ct, x = .ciphertext ct ∧
      p.Evaluates inputs c ring v ct) ?_ ok
    rintro slot x ⟨ct, rfl, evaluates⟩
    refine ⟨ct, rfl, ?_⟩
    rw [Evaluates, ← graph]
    refine Graph.Evaluates.congr (e := e) ?_ ?_ evaluates <;> rfl

/-- A planned call on the processor fails for a misfit alone, and picks what its values evaluate to. -/
theorem Checked.on_processor (checked : p.Checked) (processor : c.mode = .cpu)
    (reference : c.primitives = .reference) {ring : Partition → KeySet}
    (isOf : ∀ q ∈ p.partitions.partitions, (ring q).IsOf q)
    (keys : c.resources.keys.Answers p.partitions c.options.seed fun q k => k = ring q)
    (count : inputs.length = p.inputs.length)
    (clear : ∀ x ∈ inputs, ∃ message, x = .cleartext message)
    (prepared : Plan.prepare p.graph s false = .ok plan) (home : s.assignment = [])
    (fixed : s.deterministic = true)
    (returns : plan.MayReturn (c.environment p.partitions t) workers (p.supply inputs)
      { c.resources with cancellation } a) :
    (¬WasCancelled (a.1.bind (pick · ids)) →
      (NodeFailed (a.1.bind (pick · ids)) ↔ p.HasMisfit plan)) ∧
    ∀ xs, a.1.bind (pick · ids) = .ok xs →
      a.2.1.started = (plan.order.map fun i => (plan.graph.node i).id) ∧
      (a.2.2.keys.Answers p.partitions c.options.seed fun q k => k = ring q) ∧
      List.Forall₂ (fun v x => ∃ ct, x = .ciphertext ct ∧ p.Evaluates inputs c ring v ct) ids xs := by
  have accepted := forall₂_clear (p := p) (P := p.Accepts) count fun x mem id => by
    obtain ⟨message, rfl⟩ := clear x mem
    trivial
  obtain ⟨-, -, options⟩ := Plan.sound_of_prepare checked.wired prepared
  obtain ⟨fails, keys', picked⟩ := checked.picks_evaluated ids processor reference isOf keys accepted
    prepared home returns
  refine ⟨fails, fun xs ok => ?_⟩
  obtain ⟨started, evaluated⟩ := picked xs ok
  exact ⟨started (by rw [options, fixed]), keys', evaluated⟩

/-- Inputs that are no ciphertexts are accepted on stand-ins. -/
theorem Checked.binds_plain (checked : p.Checked) {e : Environment}
    (partitions : e.partitions = p.partitions) (simulation : e.mode = .simulation)
    (count : inputs.length = p.inputs.length) (plain : ∀ x ∈ inputs, x.ciphertext? = none)
    (graph : plan.graph = p.graph) (r : Run) :
    ∃ r', Run.bind e plan (p.supply inputs) plan.graph.arguments.toList r = (.ok (), r') := by
  refine checked.bind_ok partitions (R := fun _ x => x.ciphertext? = none) (fun v id q x _ none_ => ?_)
    (forall₂_clear count fun x mem _ => plain x mem) graph r
  rw [simulation]
  cases x with
  | ciphertext words => contradiction
  | cleartext message => exact ⟨_, rfl⟩
  | simulated s => exact ⟨_, rfl⟩

/-- A planned call on stand-ins, unless it was cancelled, has a node that failed exactly for a misfit,
and otherwise gives its caller all that was asked for; these are stand-ins that the values come to. -/
theorem Checked.picks_simulated (checked : p.Checked) (simulation : c.mode = .simulation)
    (count : inputs.length = p.inputs.length) (plain : ∀ x ∈ inputs, x.ciphertext? = none)
    (prepared : Plan.prepare p.graph s false = .ok plan)
    (returns : plan.MayReturn (c.environment p.partitions t) workers (p.supply inputs)
      { c.resources with cancellation } a) :
    (¬WasCancelled (a.1.bind (pick · ids)) →
      (NodeFailed (a.1.bind (pick · ids)) ↔ p.HasMisfit plan) ∧
      ((∃ xs, a.1.bind (pick · ids) = .ok xs) ↔ ¬p.HasMisfit plan ∧
        ∃ xs, pick (plan.requested.map fun q => (q.1, default)) ids = .ok xs)) ∧
    ∀ xs, a.1.bind (pick · ids) = .ok xs →
      (plan.options.deterministic = true →
        a.2.1.started = (plan.order.map fun i => (plan.graph.node i).id)) ∧
      List.Forall₂ (fun v x => ∃ s, x = .simulated s ∧ p.Simulates inputs c v s) ids xs := by
  obtain ⟨sound, graph, options⟩ := Plan.sound_of_prepare checked.wired prepared
  let e := c.environment p.partitions t
  have covers : e.Covers plan.graph := graph ▸ checked.covers rfl
  obtain ⟨run, bound⟩ := checked.binds_plain (e := e) rfl simulation count plain graph
    (Run.initial plan { c.resources with cancellation })
  have kept : a.Keeps (Discipline.shadows sound covers simulation (p.supply inputs)).conduct :=
    returns.keeps sound trivial (sound.wired.admits_shadows simulation) bound
  have unfit : ∀ i, plan.isLive i = true → (plan.graph.node i).HasMisfit e → ∀ v,
      ¬(Discipline.shadows sound covers simulation (p.supply inputs)).conduct.good
        (plan.graph.outputSlot i) v := by
    rintro i alive misfit v ⟨stand, -, simulates⟩
    have inside := sound.live_lt i alive
    rw [sound.wired.valueAt_output i inside] at simulates
    exact Node.HasMisfit.not_simulated (e := e) sound.wired inside misfit stand simulates
  refine ⟨fun uncancelled => ⟨kept.picked_failed unfit (fun i alive err failed => failed) uncancelled,
    kept.picked_ok_iff unfit (fun i alive err failed => failed) uncancelled⟩, fun xs ok =>
    ⟨fun fixed => kept.started fixed ok, ?_⟩⟩
  refine kept.picked_values sound (R := fun v x => ∃ s, x = .simulated s ∧ p.Simulates inputs c v s)
    ?_ ok
  rintro slot x ⟨stand, rfl, simulates⟩
  refine ⟨stand, rfl, ?_⟩
  rw [Simulates, ← graph]
  refine Graph.Simulates.congr (e := e) ?_ ?_ simulates <;> rfl

/-- Messages are no ciphertexts. -/
theorem plain_of_clear (clear : ∀ x ∈ inputs, ∃ message, x = .cleartext message) :
    ∀ x ∈ inputs, x.ciphertext? = none := by
  intro x mem
  obtain ⟨message, rfl⟩ := clear x mem
  rfl

/-- On the processor, the call by the clock is one that may happen. -/
theorem Checked.mayCall_processor (checked : p.Checked) (processor : c.mode = .cpu)
    (reference : c.primitives = .reference) {ring : Partition → KeySet}
    (keys : c.resources.keys.Answers p.partitions c.options.seed fun q k => k = ring q)
    (home : o.assignment = []) : p.MayCall inputs o c (p.callWith inputs o c) := by
  refine mayCall_of_returns fun plan t cancellation workers prepared => ?_
  obtain ⟨sound, -, options⟩ := Plan.sound_of_prepare checked.wired prepared
  have home' : plan.options.assignment = [] := by
    rw [options]
    exact home
  have handed : (c.environment p.partitions t).HandsOut (fun q k => k = ring q)
      { c.resources with cancellation } := keys
  exact Plan.execute_mayReturn
    (D := .evaluation sound processor reference home' (p.supply inputs) ring) sound
    (Environment.duration_reference reference) handed (sound.wired.admits_evaluation processor)
    workers

/-- On stand-ins, the call by the clock is one that may happen. -/
theorem Checked.mayCall_standIns (checked : p.Checked) (simulation : c.mode = .simulation)
    (reference : c.primitives = .reference) : p.MayCall inputs o c (p.callWith inputs o c) := by
  refine mayCall_of_returns fun plan t cancellation workers prepared => ?_
  obtain ⟨sound, graph, -⟩ := Plan.sound_of_prepare checked.wired prepared
  have covers : (c.environment p.partitions t).Covers plan.graph := graph ▸ checked.covers rfl
  exact Plan.execute_mayReturn (D := .shadows sound covers simulation (p.supply inputs)) sound
    (Environment.duration_reference reference) trivial (sound.wired.admits_shadows simulation) workers

end Backends

/-! ### agreement -/

/-- The noise of a ciphertext for a value does not reach the message next to the one that it is to
have. -/
def Near (p : Program) (ring : Partition → KeySet) (v : ValueId) (ct : Ciphertext)
    (message : UInt64) : Prop :=
  ∀ slot q, p.graph.slot? v = some slot →
    p.partitions.get? (p.graph.slotPartition slot) = some q →
    ∃ phase, (ring q).phase ct = .ok phase ∧ (ring q).Near message phase

/-- The shadow of a value is below the plaintext modulus of its partition. -/
theorem Checked.shadow_lt (checked : p.Checked) (simulation : c.mode = .simulation)
    (clear : ∀ x ∈ inputs, ∃ message, x = .cleartext message) {v : ValueId} {s : Simulated}
    (h : p.Simulates inputs c v s) {slot : Nat} {q : Partition}
    (place : p.graph.slot? v = some slot)
    (known : p.partitions.get? (p.graph.slotPartition slot) = some q) :
    s.shadow < q.plaintextModulus := by
  obtain ⟨q', known', below⟩ := h.bounded (checked.covers rfl) checked.wired simulation
    (supply_clear clear) slot place
  obtain rfl := Except.ok.inj
    ((Environment.partition_of_get? (e := c.environment p.partitions default) known).symm.trans known')
  exact below

/-- A value that has a stand-in has a partition. -/
theorem Checked.exists_partition (checked : p.Checked) (simulation : c.mode = .simulation)
    (clear : ∀ x ∈ inputs, ∃ message, x = .cleartext message) {v : ValueId} {s : Simulated}
    (h : p.Simulates inputs c v s) {slot : Nat} (place : p.graph.slot? v = some slot) :
    ∃ q, p.partitions.get? (p.graph.slotPartition slot) = some q := by
  obtain ⟨q, known, -⟩ := h.bounded (checked.covers rfl) checked.wired simulation
    (supply_clear clear) slot place
  exact ⟨q, Environment.get?_of_partition known⟩

/-- Ciphertexts near messages of their values decrypt to them. -/
theorem Checked.decryptAll_near (checked : p.Checked) {ring : Partition → KeySet}
    (isOf : ∀ q ∈ p.partitions.partitions, (ring q).IsOf q) {message : ValueId → UInt64 → Prop}
    {ids : List ValueId} {xs : List Value}
    (bounded : ∀ v ∈ ids, ∀ m, message v m → ∃ slot q, p.graph.slot? v = some slot ∧
      p.partitions.get? (p.graph.slotPartition slot) = some q ∧ m < q.plaintextModulus)
    (each : List.Forall₂ (fun v x => ∃ ct m, x = .ciphertext ct ∧ message v m ∧ p.Near ring v ct m)
      ids xs)
    {c : Context}
    (keys : c.resources.keys.Answers p.partitions c.options.seed fun q k => k = ring q) :
    ∃ ms c', p.decryptAll (ids.zip xs) c = (.ok ms, c') ∧ List.Forall₂ message ids ms := by
  let kept (c : Context) : Prop :=
    c.resources.keys.Answers p.partitions c.options.seed fun q k => k = ring q
  have decrypts : List.Forall₂ (fun v x => ∃ m, message v m ∧
      ∀ c, kept c → ∃ c', p.decryptValue v x c = (.ok m, c') ∧ kept c') ids xs := by
    refine ((List.forall₂_and_left (p := (· ∈ ids)) ids xs).mpr ⟨fun v mem => mem, each⟩).imp ?_
    rintro v x ⟨mem, ct, m, rfl, told, near⟩
    obtain ⟨slot, q, place, known, below⟩ := bounded v mem m told
    obtain ⟨phase, phased, close⟩ := near slot q place known
    refine ⟨m, told, fun c keys => ?_⟩
    obtain ⟨c', decrypted, options, keys'⟩ := decryptValue_ciphertext checked.sane
      (isOf q (Registry.mem_of_get? known)) place known phased close below keys
    refine ⟨c', decrypted, ?_⟩
    simp only [kept, options]
    exact keys'
  exact decryptAll_ok decrypts keys

/-- Values of the two backends decrypt to the same messages while their noise is small. -/
theorem Checked.decrypts (checked : p.Checked) {c d : Context} (c' d' : Context)
    (simulation : d.mode = .simulation) {ring : Partition → KeySet}
    (isOf : ∀ q ∈ p.partitions.partitions, (ring q).IsOf q)
    (keys : c'.resources.keys.Answers p.partitions c'.options.seed fun q k => k = ring q)
    (clear : ∀ x ∈ inputs, ∃ message, x = .cleartext message) {ids : List ValueId}
    {xs xs' : List Value} (placed : ∀ v ∈ ids, ∃ slot, p.graph.slot? v = some slot)
    (evaluated : List.Forall₂ (fun v x => ∃ ct, x = .ciphertext ct ∧ p.Evaluates inputs c ring v ct)
      ids xs)
    (simulated : List.Forall₂ (fun v x => ∃ s, x = .simulated s ∧ p.Simulates inputs d v s) ids xs')
    (near : ∀ v ∈ ids, ∀ ct s, p.Evaluates inputs c ring v ct → p.Simulates inputs d v s →
      p.Near ring v ct s.shadow) :
    ∃ messages, (p.decryptAll (ids.zip xs) c').1 = .ok messages ∧
      (p.decryptAll (ids.zip xs') d').1 = .ok messages := by
  -- both decrypt each value to its shadow
  let shadow (v : ValueId) (m : UInt64) : Prop := ∃ s, p.Simulates inputs d v s ∧ m = s.shadow
  have bounded : ∀ v ∈ ids, ∀ m, shadow v m → ∃ slot q, p.graph.slot? v = some slot ∧
      p.partitions.get? (p.graph.slotPartition slot) = some q ∧ m < q.plaintextModulus := by
    rintro v mem m ⟨s, simulates, rfl⟩
    obtain ⟨slot, place⟩ := placed v mem
    obtain ⟨q, known⟩ := checked.exists_partition simulation clear simulates place
    exact ⟨slot, q, place, known, checked.shadow_lt simulation clear simulates place known⟩
  have left : List.Forall₂ (fun v x => ∃ ct m, x = .ciphertext ct ∧ shadow v m ∧ p.Near ring v ct m)
      ids xs := by
    have stands : ∀ v ∈ ids, ∃ s, p.Simulates inputs d v s := by
      intro v mem
      obtain ⟨-, s, -, simulates⟩ := exists_of_forall₂ simulated mem
      exact ⟨s, simulates⟩
    have members := (List.forall₂_and_left (p := (· ∈ ids)) ids xs).mpr
      ⟨fun v mem => mem, evaluated⟩
    refine members.imp ?_
    rintro v x ⟨mem, ct, rfl, evaluates⟩
    obtain ⟨s, simulates⟩ := stands v mem
    exact ⟨ct, s.shadow, rfl, ⟨s, simulates, rfl⟩, near v mem ct s evaluates simulates⟩
  have right : List.Forall₂ (fun v x => ∃ m, shadow v m ∧
      ∀ c, True → ∃ c', p.decryptValue v x c = (.ok m, c') ∧ True) ids xs' := by
    have members := (List.forall₂_and_left (p := (· ∈ ids)) ids xs').mpr
      ⟨fun v mem => mem, simulated⟩
    refine members.imp ?_
    rintro v x ⟨mem, s, rfl, simulates⟩
    obtain ⟨slot, q, place, known, below⟩ := bounded v mem _ ⟨s, simulates, rfl⟩
    exact ⟨s.shadow, ⟨s, simulates, rfl⟩,
      fun c _ => ⟨c, decryptValue_simulated place known below, trivial⟩⟩
  obtain ⟨ms, c'', decrypted, told⟩ := checked.decryptAll_near isOf bounded left keys
  obtain ⟨ms', d'', decrypted', told'⟩ := decryptAll_ok right (c := d') trivial
  have only : List.Forall₂ (fun v m => ∀ m', shadow v m' → m = m') ids ms := by
    refine told.imp ?_
    rintro v m ⟨s, simulates, rfl⟩ m' ⟨s', simulates', rfl⟩
    rw [Graph.Simulates.unique checked.wired simulates simulates']
  obtain rfl := Graph.eq_of_forall₂ only told'
  exact ⟨ms, by rw [decrypted], by rw [decrypted']⟩

end Program

/-! ## a program on either backend -/

namespace Collision.Negation

/-- A context on stand-ins. -/
def standIns : Context :=
  { options := { parallelism := 1, simulation := true, deterministic := true, elide := false }
    primitives := .reference, resources := { keys := fresh } }

/-- What the program comes to in a context. -/
def called (c : Context) : Except RunError (List Value) × Trace × Context :=
  let a := answer (c.begin none).2 (c.begin none).1
  (a.1.bind (Program.pick · program.outputs), a.2.1, { (c.begin none).2 with resources := a.2.2 })

theorem mayCall {c : Context}
    (executed : (c.begin none).2.MayExecute program.graph program.partitions
      (program.supply inputs) (program.settings {} c) (c.begin none).1
      (answer (c.begin none).2 (c.begin none).1)) : program.MayCall inputs {} c (called c) := by
  have count : inputs.length = program.inputs.length := accepted.length_eq.symm
  unfold Program.MayCall
  rw [if_neg (not_not.mpr count)]
  exact ⟨_, executed, rfl⟩

theorem mayCall_context (keys : KeyCache)
    (bound : (Run.bind (((context keys).begin none).2.environment program.partitions
      ((context keys).begin none).1) plan (program.supply inputs) plan.graph.arguments.toList
      (Run.initial plan ((context keys).begin none).2.resources)).1.isOk = true)
    (gone : (ended ((context keys).begin none).2 ((context keys).begin none).1).allGone = true) :
    program.MayCall inputs {} (context keys) (called (context keys)) :=
  mayCall (.ran rfl prepared (returns bound gone))

theorem mayCall_standIns : program.MayCall inputs {} standIns (called standIns) :=
  mayCall (.ran rfl prepared (returns (by decide +kernel) (by decide +kernel)))

/-- A result without an error tells neither of a cancellation nor of a failed node. -/
theorem not_failed {α : Type} {r : Except RunError α} (h : failure? r = none) :
    ¬WasCancelled r ∧ ¬NodeFailed r := by
  cases r with
  | error err => contradiction
  | ok a => exact ⟨nofun, nofun⟩

theorem eq_error_of_failure? {α : Type} {r : Except RunError α} {err : RunError}
    (h : failure? r = some err) : r = .error err := by
  cases r with
  | error err' => exact congrArg _ (Option.some.inj h)
  | ok a => contradiction

theorem not_failed_standIns :
    ¬WasCancelled (called standIns).1 ∧ ¬NodeFailed (called standIns).1 :=
  not_failed (by decide +kernel)

theorem clear : ∀ x ∈ inputs, ∃ message, x = .cleartext message := by
  intro x mem
  exact ⟨1, List.mem_singleton.mp mem⟩

end Collision.Negation

namespace Program

variable {p : Program}

/-- A loaded program, called with the same messages in fixed order in two live contexts, one on the
processor with the reference arithmetic and a key manager that agrees with itself, and one on
stand-ins, fails by a node in both or in neither, unless a call was cancelled. Where both answer, nodes
have started in the same order, and both decrypt to the same messages while the noise of the values
asked for does not reach the next message. Shadows are below the moduli of their partitions. -/
theorem call_agrees {artifact : Artifact} (loaded : load artifact = .ok p) {c d : Context}
    (live : c.shut = false) (processor : c.mode = .cpu) (reference : c.primitives = .reference)
    (live' : d.shut = false) (simulation : d.mode = .simulation)
    (elide : d.options.elide = c.options.elide) {ring : Partition → KeySet}
    (isOf : ∀ q ∈ p.partitions.partitions, (ring q).IsOf q)
    (keys : c.resources.keys.Answers p.partitions c.options.seed fun q k => k = ring q)
    {inputs : List Value} (clear : ∀ x ∈ inputs, ∃ message, x = .cleartext message)
    {o : CallChoice} (home : o.assignment = [])
    (fixed : o.deterministic.getD c.options.deterministic = true)
    (fixed' : o.deterministic.getD d.options.deterministic = true)
    {r r' : Except RunError (List Value) × Trace × Context} (h : p.MayCall inputs o c r)
    (h' : p.MayCall inputs o d r') :
    -- the same calls fail
    (¬WasCancelled r.1 → ¬WasCancelled r'.1 → (NodeFailed r.1 ↔ NodeFailed r'.1)) ∧
    -- shadows are below their moduli
    (∀ v s slot q, p.Simulates inputs d v s → p.graph.slot? v = some slot →
      p.partitions.get? (p.graph.slotPartition slot) = some q → s.shadow < q.plaintextModulus) ∧
    -- where both succeed, they agree on the order and on the messages
    ∀ xs xs', r.1 = .ok xs → r'.1 = .ok xs' →
      r.2.1.started = r'.2.1.started ∧
      ((∀ v ∈ p.wanted o, ∀ ct s, p.Evaluates inputs c ring v ct → p.Simulates inputs d v s →
          p.Near ring v ct s.shadow) →
        ∃ messages, (p.decryptAll ((p.wanted o).zip xs) r.2.2).1 = .ok messages ∧
          (p.decryptAll ((p.wanted o).zip xs') r'.2.2).1 = .ok messages ∧
          (o.outputs = none → (p.decryptOutputs xs r.2.2).1 = .ok messages ∧
            (p.decryptOutputs xs' r'.2.2).1 = .ok messages)) := by
  have checked := checked_of_load loaded
  have settings : p.settings o d = p.settings o c := by
    simp only [Program.settings, fixed, fixed', elide]
  have host : c.mode ≠ .accelerator := by simp [processor]
  have host' : d.mode ≠ .accelerator := by simp [simulation]
  by_cases refuses : p.Refuses inputs o c
  · have refuses' : p.Refuses inputs o d := by rwa [Refuses, settings]
    obtain ⟨failed, nothing⟩ := h.refused home live host refuses
    obtain ⟨failed', -⟩ := h'.refused home live' host' refuses'
    refine ⟨fun _ _ => iff_of_false failed failed', ?_, fun xs _ ok => absurd ok (nothing xs)⟩
    exact fun v s slot q simulates place known =>
      checked.shadow_lt simulation clear simulates place known
  · have refuses' : ¬p.Refuses inputs o d := by rwa [Refuses, settings]
    have count := not_not.mp (not_or.mp refuses).1
    obtain ⟨plan, t, cancellation, workers, a, prepared, returns, rfl⟩ :=
      h.ran home live host refuses
    obtain ⟨plan', t', cancellation', workers', a', prepared', returns', rfl⟩ :=
      h'.ran home live' host' refuses'
    rw [settings] at prepared'
    obtain rfl := Except.ok.inj (prepared.symm.trans prepared')
    obtain ⟨fails, called⟩ := checked.on_processor (p.wanted o) processor reference isOf keys count
      clear prepared home fixed returns
    obtain ⟨ends', called'⟩ := checked.picks_simulated (p.wanted o) simulation count
      (plain_of_clear clear) prepared returns'
    obtain ⟨sound, graph, options⟩ := Plan.sound_of_prepare checked.wired prepared
    have placed : ∀ v ∈ p.wanted o, ∃ slot, p.graph.slot? v = some slot := by
      intro v mem
      have asked : v ∈ plan.options.requested := by rwa [options]
      obtain ⟨q, found, rfl⟩ := List.mem_map.mp (sound.asked v asked)
      exact ⟨q.2, graph ▸ sound.slots q found⟩
    refine ⟨fun uncancelled uncancelled' => (fails uncancelled).trans (ends' uncancelled').1.symm,
      fun v s slot q simulates place known =>
        checked.shadow_lt simulation clear simulates place known, fun xs xs' ok ok' => ?_⟩
    obtain ⟨started, keys', evaluated⟩ := called xs ok
    obtain ⟨started', simulated⟩ := called' xs' ok'
    have inOrder : plan.options.deterministic = true := by rw [options]; exact fixed
    refine ⟨started.trans (started' inOrder).symm, fun near => ?_⟩
    obtain ⟨messages, decrypted, decrypted'⟩ := checked.decrypts { c with resources := a.2.2 }
      { d with resources := a'.2.2 } simulation isOf keys' clear placed evaluated simulated near
    refine ⟨messages, decrypted, decrypted', fun own => ?_⟩
    have wanted : p.wanted o = p.outputs := by rw [Program.wanted, own, Option.getD_none]
    rw [wanted] at evaluated simulated decrypted decrypted'
    rw [decryptOutputs_eq evaluated.length_eq.symm, decryptOutputs_eq simulated.length_eq.symm]
    exact ⟨decrypted, decrypted'⟩

end Program

namespace Collision.Negation

/-- With a fresh key manager, the negation fails in neither backend. -/
theorem call_agrees_fresh :
    program.MayCall inputs {} (context fresh) (called (context fresh)) ∧
      program.MayCall inputs {} standIns (called standIns) ∧
      (NodeFailed (called (context fresh)).1 ↔ NodeFailed (called standIns).1) ∧
      ∀ xs xs', (called (context fresh)).1 = .ok xs → (called standIns).1 = .ok xs' →
        (called (context fresh)).2.1.started = (called standIns).2.1.started := by
  have sane := (Program.checked_of_load loaded).sane
  have keys : (context fresh).resources.keys.Answers program.partitions
      (context fresh).options.seed fun q k => k = KeySet.ofSeed q {} :=
    KeyCache.answers_of_holds sane.distinct (fun _ _ _ => rfl) (KeyCache.holds_empty 32)
  have executed := mayCall_context fresh (by decide +kernel) (by decide +kernel)
  obtain ⟨fails, -, agrees⟩ := Program.call_agrees loaded (c := context fresh) (d := standIns) rfl
    rfl rfl rfl rfl rfl (fun q _ => KeySet.isOf_ofSeed q {}) keys clear (o := {}) rfl rfl rfl executed
    mayCall_standIns
  have answered : failure? (called (context fresh)).1 = none := by decide +kernel
  exact ⟨executed, mayCall_standIns, fails (not_failed answered).1 not_failed_standIns.1,
    fun xs xs' ok ok' => (agrees xs xs' ok ok').1⟩

/-- With the key set of a colliding partition in the cache, the negation fails on the processor, and
not on stand-ins. -/
theorem stale_keys_disagree :
    Program.load artifact = .ok program ∧
      program.MayCall inputs {} (context stale) (called (context stale)) ∧
      program.MayCall inputs {} standIns (called standIns) ∧
      ¬WasCancelled (called (context stale)).1 ∧ ¬WasCancelled (called standIns).1 ∧
      NodeFailed (called (context stale)).1 ∧ ¬NodeFailed (called standIns).1 := by
  have told : failure? (called (context stale)).1 =
      some (.graphCancelled (.nodeExecution ⟨0⟩ "Ciphertext has 5 words, expected 9 (neg)")
        (some ⟨0⟩) 0) := by decide +kernel
  have executed := mayCall_context stale (by decide +kernel) (by decide +kernel)
  cases result : (called (context stale)).1 with
  | ok xs => simp [failure?, result] at told
  | error err =>
      simp only [failure?, result, Option.some.injEq] at told
      subst told
      refine ⟨loaded, executed, mayCall_standIns, ?_, not_failed_standIns.1, ⟨_, _, _, rfl⟩,
        not_failed_standIns.2⟩
      rintro ⟨skipped, same⟩
      simp at same

end Collision.Negation

end HomCircuit
