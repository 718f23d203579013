import HomCircuit.Proofs.Context.History
import HomCircuit.Proofs.Program.Fallback
import HomCircuit.Proofs.Schedule.Recount

/-!
# HomCircuit.Proofs.Program.Nonces

Which nonce a node encrypts under, and what its ciphertext is a function of.

```
processor, remote worker   nonce of the node and the words of all its inputs
device                     nonce of the node and the words of its inputs on the host
```

What is resident on a device does not count there. So where two runs of a node give it the same words,
and one of them finds an input on its device that the other finds on the host, their ciphertexts may
differ.

* `Context.inOrder_start`, `Program.MayCall.inOrder` — contexts are in order from their start on;
* `Node.Ran.agree` — two runs of a node agree where they have the same words, nonce, primitives and
  keys;
* `Graph.nonces_cover` — the nonces of every call of a graph that can be built.
-/

namespace HomCircuit

/-! ## contexts in order -/

section Order

variable {asked : Partition → Prop} {r : Resources} {p : Plan} {e : Environment}

theorem Resources.InOrder.drop (h : r.InOrder asked) (bs : List Buffer) : (r.drop bs).InOrder asked :=
  (h.follows.drop bs).inOrder

theorem Resources.InOrder.toHost (h : r.InOrder asked) (b : Buffer) : (r.toHost b).2.InOrder asked :=
  (h.follows.toHost b).inOrder

/-- Registered partitions are those of a call. -/
theorem Environment.Within.of_partitions (known : ∀ q ∈ e.partitions.partitions, asked q) :
    e.Within asked :=
  fun _ q there => known q (Registry.mem_of_get? (Environment.get?_of_partition there))

/-- The devices and links of a fresh context are in order, if the devices that it is given are. -/
theorem Context.inOrder_start {o : ContextOptions} {ps : Primitives} {devices : List Device}
    {c : Context} (fresh : Context.start o ps devices = .done c)
    (given : ∀ d ∈ devices, d.Numbered) : c.resources.InOrder asked := by
  refine ⟨?_, fun w mem => ?_⟩
  · obtain ⟨remotes, rfl⟩ := eq_of_start fresh
    unfold Resources.devices
    cases devices' : inventory? o ps devices with
    | none => exact nofun
    | some v =>
        refine forall_device devices' (fun d mem => ?_) given
        obtain ⟨k, -, rfl⟩ := List.mem_map.mp mem
        exact nofun
  · obtain ⟨⟨i, name, started⟩, -⟩ := (remotes_of_start fresh).2 w mem
    exact .of_start started

theorem Run.inOrder_collect (requested : List (ValueId × Nat)) {r : Run}
    (order : r.resources.InOrder asked) : (Run.collect requested r).2.resources.InOrder asked := by
  induction requested generalizing r with
  | nil => exact order
  | cons q rest ih =>
      unfold Run.collect
      split
      · exact order
      · next b arena _ =>
          have dropped := (order.toHost b).drop [b]
          dsimp only
          split
          · exact dropped
          · exact ih (r := { r with arena, resources := (r.resources.toHost b).2.drop [b] }) dropped

theorem Run.inOrder_finish (bound : Except RunError Unit) {r : Run}
    (order : r.resources.InOrder asked) :
    (r.finish p bound).2.2.InOrder asked := by
  unfold Run.finish
  dsimp only
  split
  · exact order.drop _
  · exact order.drop _
  · exact (Run.inOrder_collect p.requested order).drop _

/-- A call leaves the devices and links of its context in order. -/
theorem Plan.MayReturn.inOrder (sound : p.Sound) (encrypts : e.mode ≠ .simulation)
    (covers : e.Within asked) {workers : Nat} {supplied : List (ValueId × Value)}
    {resources : Resources} (order : resources.InOrder asked) {answer : Answer}
    (h : p.MayReturn e workers supplied resources answer) :
    answer.2.2.InOrder asked := by
  cases h with
  | refused bound =>
      have same := Run.resources_bind (e := e) (p := p) supplied p.graph.arguments.toList
        (Run.initial p resources)
      rw [bound] at same
      exact Run.inOrder_finish _ (same ▸ order)
  | @finished run ms bound gone =>
      obtain ⟨known, recounts⟩ := Plan.recounts sound encrypts covers order bound workers ms
      rw [← p.crew_chronicle]
      exact Run.inOrder_finish _ recounts.follows.inOrder

/-- So does every call of a program. -/
theorem Program.MayCall.inOrder {p : Program} {inputs : List Value} {o : CallChoice} {c : Context}
    (checked : p.Checked) (encrypts : c.mode ≠ .simulation)
    (known : ∀ q ∈ p.partitions.partitions, asked q) (order : c.resources.InOrder asked)
    {answer : Except RunError (List Value) × Trace × Context} (h : p.MayCall inputs o c answer) :
    answer.2.2.resources.InOrder asked := by
  have kept : (c.handOver o.token).resources.InOrder asked := ⟨order.devices, order.remotes⟩
  unfold Program.MayCall at h
  split at h
  · rw [h]
    exact kept
  · split at h
    · rw [h]
      exact kept
    · have begun : (c.begin o.token).2.resources.InOrder asked ∧
          (c.begin o.token).2.mode = c.mode := by
        unfold Context.begin
        cases o.token with
        | none => exact ⟨⟨order.devices, order.remotes⟩, rfl⟩
        | some t => exact ⟨⟨order.devices, order.remotes⟩, rfl⟩
      obtain ⟨a, executes, rfl⟩ := h
      cases executes with
      | shut gone => exact begun.1
      | unprepared live failed => exact begun.1
      | ran live prepared returns =>
          obtain ⟨sound, -, -⟩ := Plan.sound_of_prepare checked.wired prepared
          exact returns.inOrder sound (begun.2.trans_ne encrypts) (.of_partitions known) begun.1

end Order

/-! ## two runs of a node -/

section Agree

variable {e e' : Environment} {r r' : Resources} {asked asked' : Partition → Prop}
  {handed handed' : Partition → KeySet → Prop}
  {place place' : Placement} {words onHost onHost' : List Ciphertext} {n : Node}
  {ct ct' : Ciphertext}

/-- The source of a node depends on the partitions alone. -/
theorem sourcePartition_congr (same : e'.partitions = e.partitions) :
    sourcePartition e' n = sourcePartition e n := by
  unfold sourcePartition Environment.partition
  rw [same]

theorem eq_of_rel {R R' : Partition → KeySet → Prop} {source : Option Partition}
    {k k' : Option KeySet} (same : ∀ q a a', source = some q → R q a → R' q a' → a' = a)
    (h : Option.Rel R source k) (h' : Option.Rel R' source k') : k' = k := by
  cases h with
  | none =>
      cases h'
      rfl
  | some there =>
      cases h' with
      | some there' => rw [same _ _ _ rfl there there']

/-- Two runs of a node on the same words agree, if their places see the same of these words and have
the same primitives and keys. -/
theorem Node.Ran.agree (h : n.Ran e r asked handed words onHost place ct)
    (h' : n.Ran e' r' asked' handed' words onHost' place' ct')
    (partitions : e'.partitions = e.partitions)
    (seen : place'.sees words onHost' = place.sees words onHost)
    (apart : ∀ d, place = .accelerator d → r.devices.ids.Nodup)
    (apart' : ∀ d, place' = .accelerator d → r'.devices.ids.Nodup)
    (primitives : ∀ ps ps', e.Offers r place ps → e'.Offers r' place' ps' → ps' = ps)
    (keys : ∀ id q k k', e.partition id = .ok q → place.Holds e.seed asked handed q k →
      place'.Holds e'.seed asked' handed' q k' → k' = k) : ct' = ct := by
  obtain @⟨ps, q, source, k, given, offers, known, found, output, input, same, made⟩ := h
  obtain @⟨ps', q', source', k', given', offers', known', found', output', input', same', made'⟩ :=
    h'
  rw [Environment.partition, partitions] at known'
  obtain rfl := Except.ok.inj (known.symm.trans known')
  rw [sourcePartition_congr partitions] at found'
  obtain rfl := Except.ok.inj (found.symm.trans found')
  have inputs : k'.input = k.input := by
    refine eq_of_rel (fun q a a' from_ => ?_) input input'
    obtain ⟨id, there⟩ := exists_of_sourcePartition (from_ ▸ found)
    exact keys id q a a' there
  have sets : k' = k :=
    congrArg₂ OperationKeys.mk (keys _ _ _ _ known output output') inputs
  rw [same apart] at made
  rw [same' apart', seen, primitives _ _ offers offers', sets] at made'
  exact Outcome.done.inj (made'.symm.trans made)

end Agree

/-! ## of a graph -/

/-- In every interleaving of a call that encrypts, a node that gave a buffer ran on the contents of all
its inputs, under keys of its place, and under the nonce of its number and of what its place sees: all
its inputs on the processor, also where this stands in for a device, and on a remote worker; those on
the host, in their order, on a device. So another run of the node on the same contents agrees with it,
wherever it takes place, if it sees the same of them and has the same primitives and keys. -/
theorem Graph.nonces_cover {nodes : List Node} {arguments : List (ValueId × PartitionId)}
    {g : Graph} (built : Graph.build nodes arguments = .ok g) {o : CallOptions}
    {accelerating : Bool} {p : Plan}
    (prepared : Plan.prepare g o accelerating = .ok p) {e : Environment}
    (encrypts : e.mode ≠ .simulation) {asked : Partition → Prop} (covers : e.Within asked)
    {supplied : List (ValueId × Value)} {resources : Resources} (order : resources.InOrder asked)
    {run : Run}
    (bound : Run.bind e p supplied g.arguments.toList (Run.initial p resources) = (.ok (), run))
    (workers : Nat) (ms : List Move) :
    let c := p.chronicle e run workers ms
    let handed := p.Handed e run workers ms
    -- what follows is told of the workers of the call, wherever they have come to
    c.crew p = (Plan.crew run workers).moves e p ms ∧
    -- devices and links stay in order
    c.run.resources.InOrder asked ∧
    -- each slot has one content: who reads a buffer that was put there reads it, wherever it resides
    ∃ content : Nat → Ciphertext,
      (∀ slot b x, c.history.stored? p run slot = some b → (c.run.resources.toHost b).1 = .ok x →
        x = .ciphertext (content slot)) ∧
      ∀ i done b, .settled i done ∈ c.history → done.result = .ok b →
        let words := (g.inputsOf i).map content
        let onHost := hostWords ((g.inputsOf i).filterMap (c.history.stored? p run))
        let place := done.record.placement
        (∀ slot ∈ g.inputsOf i, (c.history.stored? p run slot).isSome = true) ∧
        ∃ ct, (∀ x, (c.run.resources.toHost b).1 = .ok x → x = .ciphertext ct) ∧
          (c.history.stored? p run (g.outputSlot i) = some b → content (g.outputSlot i) = ct) ∧
          -- what the ciphertext was made of, and under which nonce
          (g.node i).Ran e resources asked handed words onHost place ct ∧
          -- and any other run of the node, in whatever call
          ∀ e' r' asked' handed' onHost' place' ct',
            (g.node i).Ran e' r' asked' handed' words onHost' place' ct' →
            e'.partitions = e.partitions →
            place'.sees words onHost' = place.sees words onHost →
            (∀ d, place = .accelerator d → resources.devices.ids.Nodup) →
            (∀ d, place' = .accelerator d → r'.devices.ids.Nodup) →
            (∀ ps ps', e.Offers resources place ps → e'.Offers r' place' ps' → ps' = ps) →
            (∀ id q k k', e.partition id = .ok q → place.Holds e.seed asked handed q k →
              place'.Holds e'.seed asked' handed' q k' → k' = k) →
            ct' = ct := by
  obtain ⟨sound, rfl, -⟩ := Plan.sound_of_prepare (wired_of_build built) prepared
  obtain ⟨-, rfl⟩ := Run.begun_of_bind sound bound
  intro c handed
  obtain ⟨known, recounts⟩ := Plan.recounts sound encrypts covers order bound workers ms
  obtain ⟨content, reads, ran⟩ := recounts.exists_content
  refine ⟨p.crew_chronicle e run workers ms, recounts.follows.inOrder, content,
    fun slot b x stored copied => recounts.follows.eq_of_toHost (reads slot b stored) copied,
    fun i done b settled ok => ?_⟩
  obtain ⟨there, ct, has, made⟩ := ran (i, done) (History.mem_settled.mpr settled) b ok
  refine ⟨there, ct, fun x copied => recounts.follows.eq_of_toHost has copied, fun stored => ?_, made,
    fun e' r' asked' handed' onHost' place' ct' other => made.agree other⟩
  exact (reads _ b stored).unique recounts.follows.devices has

/-! ## a chain on a device -/

namespace Residence

/-- A negation, and a table lookup of its result. -/
def nodes : List Node :=
  [{ id := ⟨0⟩, op := .neg, inputs := [⟨0⟩], output := ⟨1⟩, partition := ⟨0⟩ },
    { id := ⟨1⟩, op := .lookup ((List.range 16).map UInt64.ofNat), inputs := [⟨1⟩], output := ⟨2⟩
      partition := ⟨0⟩ }]

def arguments : List (ValueId × PartitionId) := [(⟨0⟩, ⟨0⟩)]

def graph : Graph := Graph.wire nodes arguments

def options : CallOptions := { requested := [⟨2⟩], deterministic := true, elide := false }

/-- A fresh context with one worker, on the processor or with one device. -/
def context (accelerator : Bool) : Context :=
  let options : ContextOptions :=
    { parallelism := 1, accelerator, deterministic := true, elide := false }
  { options, primitives := .reference
    resources :=
      { keys := .empty options.cacheCapacity
        inventory := Context.inventory? options .reference [] } }

def environment (accelerator : Bool) : Environment :=
  (context accelerator).environment (Registry.empty.add Collision.base) ⟨0, none⟩

def plan (accelerator : Bool) : Plan :=
  (Plan.prepare graph options accelerator).toOption.getD default

def supplied : List (ValueId × Value) := [(⟨0⟩, .cleartext 1)]

/-- The call with its argument in place. -/
def begun (accelerator : Bool) : Run :=
  (Run.bind (environment accelerator) (plan accelerator) supplied graph.arguments.toList
    (Run.initial (plan accelerator) (context accelerator).resources)).2

/-- One worker has done everything. -/
def ended (accelerator : Bool) : Chronicle :=
  (plan accelerator).chronicle (environment accelerator) (begun accelerator) 1
    (List.replicate 60 (.worker 0))

/-- What the call answers. -/
def answer (accelerator : Bool) : Answer :=
  (ended accelerator).run.finish (plan accelerator) (.ok ())

theorem built : Graph.build nodes arguments = .ok graph :=
  Graph.build_eq_ok (by decide) (by decide +kernel)

theorem prepared (accelerator : Bool) :
    Plan.prepare graph options accelerator = .ok (plan accelerator) :=
  Except.eq_ok_of_isOk (by revert accelerator; decide +kernel)

theorem order (accelerator : Bool) :
    (context accelerator).resources.InOrder (· = Collision.base) := by
  have fresh : Context.start (context accelerator).options .reference [] =
      .done (context accelerator) := by cases accelerator <;> rfl
  exact Context.inOrder_start fresh nofun

theorem covers (accelerator : Bool) : (environment accelerator).Within (· = Collision.base) := by
  refine .of_partitions fun q mem => ?_
  simpa [environment, Context.environment, Registry.add, Registry.empty] using mem

theorem bound (accelerator : Bool) :
    Run.bind (environment accelerator) (plan accelerator) supplied graph.arguments.toList
      (Run.initial (plan accelerator) (context accelerator).resources) =
      (.ok (), begun accelerator) := by
  refine Prod.ext (Except.eq_ok_of_isOk ?_) rfl
  revert accelerator
  decide +kernel

/-- The first word that is returned. -/
def firstWord? (answer : Answer) : Option UInt64 :=
  answer.1.toOption.bind fun values => values.head?.bind fun a => a.2.ciphertext?.bind List.head?

/-- The chain comes to an end, with both nodes at one place, the words that the second finds on the
host, the nonces of both, the latest first, and the first word that is returned. -/
@[mk_iff]
structure Tells (accelerator : Bool) (place : Placement) (onHost : List Ciphertext) (word : UInt64) :
    Prop where
  gone : ((ended accelerator).crew (plan accelerator)).allGone = true
  settled : (ended accelerator).history.settled.map
    (fun s => (s.1, s.2.result.isOk, s.2.record.placement)) = [(0, true, place), (1, true, place)]
  host : hostWords ((graph.inputsOf 1).filterMap
    ((ended accelerator).history.stored? (plan accelerator) (begun accelerator))) = onHost
  nonces : (answer accelerator).2.2.calls.map PrimitiveCall.nonce =
    [nodeNonce ⟨1⟩ onHost, nodeNonce ⟨0⟩ [[0, 0, 0, 0, 0x0800000000000000]]]
  records : (answer accelerator).2.1.records = [⟨⟨0⟩, place, false⟩, ⟨⟨1⟩, place, false⟩]
  told : firstWord? (answer accelerator) = some word

theorem tells_device : Tells true (.accelerator ⟨0⟩) [] 0x2e006bf1bf03d656 :=
  (tells_iff _ _ _ _).mpr (by decide +kernel)

theorem tells_processor :
    Tells false .cpu [[0, 0, 0, 0, 0xf800000000000000]] 0x4e3db53c1294c086 :=
  (tells_iff _ _ _ _).mpr (by decide +kernel)

/-- The nonce of a lookup on a device is that of its node alone, where its input is resident. On the
processor it is that of the input too. -/
theorem nonces_cover_chain :
    (∀ accelerator, (environment accelerator).mode ≠ .simulation ∧
      (environment accelerator).Within (· = Collision.base) ∧
      (context accelerator).resources.InOrder (· = Collision.base)) ∧
    ∀ accelerator place onHost,
      (accelerator, place, onHost) ∈ [(true, .accelerator ⟨0⟩, []),
        (false, .cpu, [[0, 0, 0, 0, 0xf800000000000000]])] →
      ∃ done words ct, .settled 1 done ∈ (ended accelerator).history ∧
        (graph.node 1).Ran (environment accelerator) (context accelerator).resources
          (· = Collision.base)
          ((plan accelerator).Handed (environment accelerator) (begun accelerator) 1
            (List.replicate 60 (.worker 0)))
          words onHost place ct := by
  have encrypts (accelerator : Bool) : (environment accelerator).mode ≠ .simulation := by
    cases accelerator <;> exact nofun
  have ran {accelerator : Bool} {place : Placement} {onHost : List Ciphertext} {word : UInt64}
      (tells : Tells accelerator place onHost word) :
      ∃ done words ct, .settled 1 done ∈ (ended accelerator).history ∧
        (graph.node 1).Ran (environment accelerator) (context accelerator).resources
          (· = Collision.base)
          ((plan accelerator).Handed (environment accelerator) (begun accelerator) 1
            (List.replicate 60 (.worker 0)))
          words onHost place ct := by
    have second : (1, true, place) ∈ (ended accelerator).history.settled.map
        (fun s => (s.1, s.2.result.isOk, s.2.record.placement)) := by
      rw [tells.settled]
      exact List.mem_cons_of_mem _ List.mem_cons_self
    obtain ⟨done, out, mem, ok, rfl⟩ := History.exists_settled second
    obtain ⟨-, -, content, -, each⟩ := Graph.nonces_cover built (prepared accelerator)
      (encrypts accelerator) (covers accelerator) (order accelerator) (bound accelerator) 1
      (List.replicate 60 (.worker 0))
    obtain ⟨-, ct, -, -, ran, -⟩ := each _ done out mem ok
    refine ⟨done, (graph.inputsOf 1).map content, ct, mem, ?_⟩
    have host := tells.host
    rw [ended] at host
    rw [host] at ran
    exact ran
  refine ⟨fun accelerator => ⟨encrypts accelerator, covers accelerator, order accelerator⟩, ?_⟩
  intro accelerator place onHost mem
  rcases List.mem_cons.mp mem with same | mem
  · cases same
    exact ran tells_device
  · cases List.mem_singleton.mp mem
    exact ran tells_processor

/-- Two calls of one graph on one argument, in fresh contexts that differ in a device alone: where the
negation stays on the device, it does not count for the nonce of the lookup, and the lookup encrypts
to another ciphertext. -/
theorem resident_input_left_out :
    (plan true).MayReturn (environment true) 1 supplied (context true).resources (answer true) ∧
      (plan false).MayReturn (environment false) 1 supplied (context false).resources
        (answer false) ∧
      (answer true).2.1.records =
        [⟨⟨0⟩, .accelerator ⟨0⟩, false⟩, ⟨⟨1⟩, .accelerator ⟨0⟩, false⟩] ∧
      (answer false).2.1.records = [⟨⟨0⟩, .cpu, false⟩, ⟨⟨1⟩, .cpu, false⟩] ∧
      (answer true).2.2.calls.map PrimitiveCall.nonce =
        [nodeNonce ⟨1⟩ [], nodeNonce ⟨0⟩ [[0, 0, 0, 0, 0x0800000000000000]]] ∧
      (answer false).2.2.calls.map PrimitiveCall.nonce =
        [nodeNonce ⟨1⟩ [[0, 0, 0, 0, 0xf800000000000000]],
          nodeNonce ⟨0⟩ [[0, 0, 0, 0, 0x0800000000000000]]] ∧
      nodeNonce ⟨1⟩ [] ≠ nodeNonce ⟨1⟩ [[0, 0, 0, 0, 0xf800000000000000]] ∧
      (answer true).1 ≠ (answer false).1 := by
  have returns {accelerator : Bool} {place : Placement} {onHost : List Ciphertext} {word : UInt64}
      (tells : Tells accelerator place onHost word) :
      (plan accelerator).MayReturn (environment accelerator) 1 supplied
        (context accelerator).resources (answer accelerator) := by
    have graph : (plan accelerator).graph = graph :=
      (Plan.sound_of_prepare (Graph.wired_of_build built) (prepared accelerator)).2.1
    refine .of_chronicle ?_ tells.gone
    rw [graph]
    exact bound accelerator
  refine ⟨returns tells_device, returns tells_processor, tells_device.records,
    tells_processor.records, tells_device.nonces, tells_processor.nonces, by decide +kernel, fun same => ?_⟩
  have words : firstWord? (answer true) = firstWord? (answer false) := by
    unfold firstWord?
    rw [same]
  rw [tells_device.told, tells_processor.told] at words
  exact absurd words (by decide)

end Residence

end HomCircuit
