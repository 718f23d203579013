import HomCircuit.Proofs.Key.Recency
import HomCircuit.Proofs.Program.Nonces

/-!
# HomCircuit.Proofs.Program.Imports

Which nodes an imported key set reaches.

```
an import →  entry of the context's key manager  →  processor, devices
a request →  partitions and seed, no keys        →  remote worker: its own keys, generated there
```

A request to a remote worker names partitions and a seed. So what is imported into a context governs
the nodes that run on its processor and on its devices, and no others.

* `KeyCache.slot?_importBlob` — an import puts its key set in place, whatever came before;
* `Plan.Handed.eq_of_cached` — as long as an entry is cached, it is what is handed out;
* `Graph.imports_govern` — which key sets the nodes of a call run with.
-/

namespace HomCircuit

/-! ## encryption under one nonce -/

/-- Key sets of one partition and seed that encrypt a message to one ciphertext make the same of its
mask. -/
theorem KeySet.dot_eq_of_encrypt_eq {k k' : KeySet} {m nonce : UInt64}
    (partition : k'.partition = k.partition) (seed : k'.seed = k.seed)
    (size : k'.encryptionKey.length = k.encryptionKey.length)
    (same : k'.encrypt m nonce = k.encrypt m nonce) :
    dot (k.randomness nonce).1 k'.encryptionKey = dot (k.randomness nonce).1 k.encryptionKey := by
  have drawn : k'.randomness nonce = k.randomness nonce := by
    unfold randomness
    rw [partition, seed, size]
  have encoded : k'.encode m = k.encode m := by
    unfold encode
    rw [partition]
  simp only [encrypt, drawn, encoded] at same
  have body := List.singleton_inj.mp (List.append_cancel_left same)
  exact add_right_cancel (add_right_cancel body)

/-! ## imports -/

/-- What is imported comes in front. -/
theorem RecentKeys.mem_importKeys (r : RecentKeys) (id : KeyId) : id ∈ (r.importKeys id).ids := by
  have placed (r : RecentKeys) : id ∈ (r.place id).ids := by
    unfold place
    split
    · exact List.mem_cons_self
    · split <;> exact List.mem_cons_self
  unfold importKeys
  split <;> exact placed _

namespace KeyCache

variable {c : KeyCache} {id : KeyId} {shared : SharedKeys} {b : KeyBlob} {keys : KeySet}

/-- What stands under the identity of a new ready entry is this entry. -/
theorem eq_of_insertReady {s : KeySlot} (found : (c.insertReady id shared).slot? id = some s) :
    s = .ready shared c.tick.clock := by
  have mem : (id, s) ∈ (c.tick.put id (.ready shared c.tick.clock)).slots :=
    mem_shrink (mem_of_slot? found)
  rcases List.mem_cons.mp mem with same | old
  · exact (Prod.mk.inj same).2
  · simp at old

/-- An import puts its key set in place, whatever calls were made before. -/
theorem slot?_importBlob (read : b.toKeySet = .ok keys) (capacity : Nat) (calls : List KeyCall) :
    ∃ shared used, shared.keys = keys ∧
      (((empty capacity).run calls).importBlob b).2.slot? (KeyId.of keys.partition keys.seed) =
        some (.ready shared used) := by
  obtain ⟨follows, sound⟩ :=
    (follows_empty capacity).run (RecentKeys.balanced_empty capacity) calls
  obtain ⟨-, placed⟩ := follows.importBlob sound.toBounded read
  have id : KeyId.of b.partition b.seed = KeyId.of keys.partition keys.seed := by
    rw [(KeySet.isOf_of_ofKeyBytes read).partition, KeySet.seed_of_ofKeyBytes read]
  rw [id] at placed
  have known := RecentKeys.mem_importKeys ((RecentKeys.empty capacity).run calls)
    (KeyId.of keys.partition keys.seed)
  rcases placed.slot_cases (KeyId.of keys.partition keys.seed) with
    ⟨new, -⟩ | ⟨shared, used, -, found⟩
  · exact absurd known new
  · refine ⟨shared, used, ?_, found⟩
    simp only [importBlob, read] at found
    obtain ⟨rfl, -⟩ := KeySlot.ready.inj (eq_of_insertReady found)
    rfl

end KeyCache

/-! ## key sets of a call -/

section Handed

variable {e : Environment} {p : Plan} {run : Run} {workers : Nat} {ms : List Move}

/-- As long as an entry is cached, it is what is handed out under its identity. -/
theorem Plan.Handed.eq_of_cached {q : Partition} {k keys : KeySet}
    (h : p.Handed e run workers ms q k)
    (cached : ∀ before, before <+: ms → ∃ shared used, shared.keys = keys ∧
      (p.chronicle e run workers before).run.resources.keys.slot? (KeyId.of q e.seed) =
        some (.ready shared used)) : k = keys := by
  obtain ⟨before, early, shared, answered, rfl⟩ := h
  obtain ⟨shared', used, rfl, found⟩ := cached before early
  cases valid : q.validate with
  | error err => simp [KeyCache.getOrCreate, valid] at answered
  | ok _ =>
      rw [KeyCache.getOrCreate_eq_of_ready valid found] at answered
      rw [Except.ok.inj answered]

end Handed

section Ran

variable {e : Environment} {r : Resources} {asked : Partition → Prop}
  {handed handed' : Partition → KeySet → Prop} {n : Node} {words onHost : List Ciphertext}
  {place : Placement} {ct : Ciphertext}

/-- More may be known of the key sets that are handed out. -/
theorem Node.Ran.mono (h : n.Ran e r asked handed words onHost place ct)
    (more : ∀ q k, handed q k → handed' q k) : n.Ran e r asked handed' words onHost place ct := by
  obtain ⟨offers, known, found, output, input, same, made⟩ := h
  have holds (q : Partition) (k : KeySet) (h : place.Holds e.seed asked handed q k) :
      place.Holds e.seed asked handed' q k := by
    cases place with
    | remote w => exact h
    | _ => exact more q k h
  refine ⟨offers, known, found, holds _ _ output, ?_, same, made⟩
  generalize OperationKeys.input _ = source at input ⊢
  cases input with
  | none => exact .none
  | some there => exact .some (holds _ _ there)

/-- On a remote worker, a node runs with key sets that the worker has generated. -/
theorem Node.Ran.remote {w : Nat} (h : n.Ran e r asked handed words onHost (.remote w) ct) :
    ∃ worker q source own, r.remotes[w]? = some worker ∧ e.partition n.partition = .ok q ∧
      sourcePartition e n = .ok source ∧ GeneratedKeys asked q source e.seed own ∧
      worker.options.primitives.run n.op words own (nodeNonce n.id words) = .done ct := by
  obtain ⟨offers, known, found, output, input, same, made⟩ := h
  rw [same nofun] at made
  cases offers with
  | remote there => exact ⟨_, _, _, _, there, known, found, ⟨output, input⟩, made⟩

end Ran

/-! ## of a graph -/

/-- An import puts its key set in place, and while it is cached there, every node of a call that gave
a buffer on the processor or on a device ran with it for the partition and seed of the import, be this
the partition of the node or the one that it starts from. On a remote worker a node ran with key sets
that the worker has generated itself. So a node moves there without change to its ciphertext, if these
are the key sets that the context hands out. -/
theorem Graph.imports_govern {nodes : List Node} {arguments : List (ValueId × PartitionId)}
    {g : Graph} (built : Graph.build nodes arguments = .ok g) {o : CallOptions}
    {accelerating : Bool} {p : Plan}
    (prepared : Plan.prepare g o accelerating = .ok p) {e : Environment}
    (encrypts : e.mode ≠ .simulation) {asked : Partition → Prop} (covers : e.Within asked)
    {supplied : List (ValueId × Value)} {resources : Resources} (order : resources.InOrder asked)
    {run : Run}
    (bound : Run.bind e p supplied g.arguments.toList (Run.initial p resources) = (.ok (), run))
    (workers : Nat) (ms : List Move) {b : KeyBlob} {keys : KeySet} (read : b.toKeySet = .ok keys)
    (seed : keys.seed = e.seed)
    (cached : ∀ before, before <+: ms → ∃ shared used, shared.keys = keys ∧
      (p.chronicle e run workers before).run.resources.keys.slot?
        (KeyId.of keys.partition e.seed) = some (.ready shared used)) :
    let c := p.chronicle e run workers ms
    -- the import puts the key set in place
    (∀ capacity calls, ∃ shared used, shared.keys = keys ∧
      (((KeyCache.empty capacity).run calls).importBlob b).2.slot? (KeyId.of keys.partition e.seed) =
        some (.ready shared used)) ∧
    -- what follows is told of the workers of the call, wherever they have come to
    c.crew p = (Plan.crew run workers).moves e p ms ∧
    -- each slot has one content, and so has each result
    ∃ content : Nat → Ciphertext,
      (∀ slot b x, c.history.stored? p run slot = some b → (c.run.resources.toHost b).1 = .ok x →
        x = .ciphertext (content slot)) ∧
      ∀ i done out, .settled i done ∈ c.history → done.result = .ok out →
        let words := (g.inputsOf i).map content
        let onHost := hostWords ((g.inputsOf i).filterMap (c.history.stored? p run))
        let place := done.record.placement
        ∃ ct, (∀ x, (c.run.resources.toHost out).1 = .ok x → x = .ciphertext ct) ∧
          -- the processor and devices use the imported key set
          ((∀ w, place ≠ .remote w) →
            (g.node i).Ran e resources asked (fun q k => q = keys.partition → k = keys) words onHost
              place ct) ∧
          -- remote workers use key sets of their own
          (∀ w, place = .remote w → ∃ worker q source own, resources.remotes[w]? = some worker ∧
            e.partition (g.node i).partition = .ok q ∧ sourcePartition e (g.node i) = .ok source ∧
            GeneratedKeys asked q source e.seed own ∧
            worker.options.primitives.run (g.node i).op words own (nodeNonce (g.node i).id words) =
              .done ct) ∧
          -- and any other run of the node, in whatever call, on a remote worker
          (place = .cpu → ∀ r' asked' handed' onHost' w ct',
            (g.node i).Ran e r' asked' handed' words onHost' (.remote w) ct' →
            (∀ worker, r'.remotes[w]? = some worker → worker.options.primitives = e.primitives) →
            (∀ id q k k', e.partition id = .ok q → p.Handed e run workers ms q k →
              (KeyId.of q e.seed).Generates asked' k' → k' = k) →
            ct' = ct) := by
  obtain ⟨sound, rfl, -⟩ := Plan.sound_of_prepare (wired_of_build built) prepared
  obtain ⟨-, rfl⟩ := Run.begun_of_bind sound bound
  intro c
  obtain ⟨known, recounts⟩ := Plan.recounts sound encrypts covers order bound workers ms
  obtain ⟨content, reads, ran⟩ := recounts.exists_content
  refine ⟨seed ▸ KeyCache.slot?_importBlob read, p.crew_chronicle e run workers ms, content,
    fun slot b x stored copied => recounts.follows.eq_of_toHost (reads slot b stored) copied,
    fun i done out settled ok => ?_⟩
  obtain ⟨-, ct, has, made⟩ := ran (i, done) (History.mem_settled.mpr settled) out ok
  refine ⟨ct, fun x copied => recounts.follows.eq_of_toHost has copied, fun home => ?_,
    fun w away => ?_, fun home r' asked' handed' onHost' w ct' other same generated => ?_⟩
  · refine made.mono fun q k handed => ?_
    rintro rfl
    exact handed.eq_of_cached cached
  · exact (away ▸ made).remote
  · refine (home ▸ made).agree other rfl rfl nofun nofun (fun ps ps' here there => ?_) generated
    cases here
    cases there with
    | remote there => exact same _ there

/-! ## a lookup under supplied keys -/

namespace Supplied

/-- Keys without any coefficient, for a partition and a seed. -/
def blob : KeyBlob :=
  { version := KeyBlob.currentVersion, partition := Collision.base, seed := {}
    keyBytes := List.replicate 5 0 }

def imported : KeySet := ⟨Collision.base, {}, [false], List.replicate 4 false⟩

/-- What is generated for the same partition and seed. -/
def generated : KeySet := KeySet.ofSeed Collision.base {}

/-- One table lookup. -/
def nodes : List Node :=
  [{ id := ⟨0⟩, op := .lookup ((List.range 16).map UInt64.ofNat), inputs := [⟨0⟩], output := ⟨1⟩
     partition := ⟨0⟩ }]

def arguments : List (ValueId × PartitionId) := [(⟨0⟩, ⟨0⟩)]

def graph : Graph := Graph.wire nodes arguments

/-- The lookup stays, or moves to a remote worker. -/
def options (moved : Bool) : CallOptions :=
  { requested := [⟨1⟩], deterministic := true, elide := false
    assignment := if moved then [(⟨0⟩, 0)] else [] }

def plan (moved : Bool) : Plan :=
  (Plan.prepare graph (options moved) false).toOption.getD default

/-- A fresh context with one worker of its own and a remote one. -/
def context : Context :=
  let options : ContextOptions := { parallelism := 1, deterministic := true, remoteWorkers := 1 }
  { options, primitives := .reference
    resources :=
      { keys := .empty options.cacheCapacity
        inventory := Context.inventory? options .reference []
        remotes := [.spawn 0 "remote-0" (Context.remoteOptions options .reference)] } }

def environment : Environment := context.environment (Registry.empty.add Collision.base) ⟨0, none⟩

/-- The keys are imported before the call. -/
def resources : Resources :=
  { context.resources with keys := (context.resources.keys.importBlob blob).2 }

def supplied : List (ValueId × Value) := [(⟨0⟩, .cleartext 1)]

/-- The call with its argument in place. -/
def begun (moved : Bool) : Run :=
  (Run.bind environment (plan moved) supplied graph.arguments.toList
    (Run.initial (plan moved) resources)).2

/-- All that the one worker does. -/
def moves : List Move := List.replicate 30 (.worker 0)

def ended (moved : Bool) : Chronicle := (plan moved).chronicle environment (begun moved) 1 moves

/-- What the call answers. -/
def answer (moved : Bool) : Answer := (ended moved).run.finish (plan moved) (.ok ())

theorem built : Graph.build nodes arguments = .ok graph :=
  Graph.build_eq_ok (by decide) (by decide +kernel)

theorem prepared (moved : Bool) : Plan.prepare graph (options moved) false = .ok (plan moved) :=
  Except.eq_ok_of_isOk (by revert moved; decide +kernel)

theorem read : blob.toKeySet = .ok imported := rfl

theorem order : resources.InOrder (· = Collision.base) := by
  have fresh : Context.start context.options .reference [] = .done context := rfl
  have order : context.resources.InOrder (· = Collision.base) := Context.inOrder_start fresh nofun
  exact ⟨order.devices, order.remotes⟩

theorem covers : environment.Within (· = Collision.base) := by
  refine .of_partitions fun q mem => ?_
  simpa [environment, Context.environment, Registry.add, Registry.empty] using mem

theorem bound (moved : Bool) :
    Run.bind environment (plan moved) supplied graph.arguments.toList
      (Run.initial (plan moved) resources) = (.ok (), begun moved) := by
  refine Prod.ext (Except.eq_ok_of_isOk ?_) rfl
  revert moved
  decide +kernel

/-- Whether the imported keys are cached. -/
def isCached (keys : KeyCache) : Bool :=
  match keys.slot? (KeyId.of Collision.base {}) with
  | some (.ready shared _) => shared.keys = imported
  | _ => false

theorem cached (moved : Bool) (before : List Move) (early : before <+: moves) :
    ∃ shared used, shared.keys = imported ∧
      ((plan moved).chronicle environment (begun moved) 1 before).run.resources.keys.slot?
        (KeyId.of Collision.base {}) = some (.ready shared used) := by
  have stays : ∀ moved : Bool, ∀ n ≤ 30,
      isCached
        ((plan moved).chronicle environment (begun moved) 1 (moves.take n)).run.resources.keys =
          true := by
    decide +kernel
  have here := stays moved before.length early.length_le
  rw [← List.prefix_iff_eq_take.mp early] at here
  unfold isCached at here
  split at here
  · next shared used found => exact ⟨shared, used, by simpa using here, found⟩
  · contradiction

/-- Where the lookup runs. -/
def place (moved : Bool) : Placement := if moved then .remote 0 else .cpu

/-- The lookup is settled, and the worker has done everything. -/
theorem done (moved : Bool) : ((ended moved).crew (plan moved)).allGone = true ∧
    (ended moved).history.settled.map (fun s => (s.1, s.2.result.isOk, s.2.record.placement)) =
      [(0, true, place moved)] ∧
    (answer moved).2.1.records = [⟨⟨0⟩, place moved, false⟩] := by
  revert moved
  decide +kernel

/-- The nonce of the lookup. -/
def nonce : UInt64 := nodeNonce ⟨0⟩ [[0, 0, 0, 0, 0x0800000000000000]]

set_option maxRecDepth 20000 in
/-- Each place encrypts under its own keys. -/
theorem answers (moved : Bool) : (answer moved).1 =
    .ok [(⟨1⟩, .ciphertext ((if moved then generated else imported).encrypt 1 nonce))] := by
  cases moved <;> with_unfolding_all rfl

theorem exists_settled (moved : Bool) : ∃ done out, .settled 0 done ∈ (ended moved).history ∧
    done.result = .ok out ∧ done.record.placement = place moved := by
  refine History.exists_settled ?_
  rw [(done moved).2.1]
  exact List.mem_singleton_self _

/-- The imported keys govern the lookup on the processor. On the remote worker it runs with keys that
were generated there. -/
theorem imports_govern_lookup :
    blob.toKeySet = .ok imported ∧ imported.seed = environment.seed ∧
      resources.InOrder (· = Collision.base) ∧
      (∃ done words onHost ct, .settled 0 done ∈ (ended false).history ∧
        (graph.node 0).Ran environment resources (· = Collision.base)
          (fun q k => q = Collision.base → k = imported) words onHost .cpu ct) ∧
      ∃ done words ct worker q source own, .settled 0 done ∈ (ended true).history ∧
        resources.remotes[0]? = some worker ∧
        GeneratedKeys (· = Collision.base) q source {} own ∧
        worker.options.primitives.run (graph.node 0).op words own
          (nodeNonce (graph.node 0).id words) = .done ct := by
  have encrypts : environment.mode ≠ .simulation := nofun
  have governs (moved : Bool) := Graph.imports_govern built (prepared moved) encrypts covers order
    (bound moved) 1 moves read rfl (cached moved)
  refine ⟨read, rfl, order, ?_, ?_⟩
  · obtain ⟨done, out, settled, ok, placed⟩ := exists_settled false
    obtain ⟨-, -, content, -, each⟩ := governs false
    obtain ⟨ct, -, home, -⟩ := each 0 done out settled ok
    rw [placed] at home
    exact ⟨done, _, _, ct, settled, home nofun⟩
  · obtain ⟨done, out, settled, ok, placed⟩ := exists_settled true
    obtain ⟨-, -, content, -, each⟩ := governs true
    obtain ⟨ct, -, -, away, -⟩ := each 0 done out settled ok
    obtain ⟨worker, q, source, own, there, -, -, keys, ran⟩ := away 0 placed
    exact ⟨done, _, ct, worker, q, source, own, settled, there, keys, ran⟩

/-- Two calls of one graph on one argument, in contexts that differ in nothing, with imported keys
that stay cached: where the lookup moves to the remote worker, its ciphertext is another one, encrypted
under generated keys. -/
theorem imported_keys_stay_home :
    (∃ shared, (context.resources.keys.importBlob blob).1 = .ok shared ∧ shared.keys = imported) ∧
      (∀ moved before, before <+: moves → ∃ shared used, shared.keys = imported ∧
        ((plan moved).chronicle environment (begun moved) 1 before).run.resources.keys.slot?
          (KeyId.of Collision.base {}) = some (.ready shared used)) ∧
      (∀ moved, (plan moved).MayReturn environment 1 supplied resources (answer moved)) ∧
      (answer false).2.1.records = [⟨⟨0⟩, .cpu, false⟩] ∧
      (answer true).2.1.records = [⟨⟨0⟩, .remote 0, false⟩] ∧
      (answer false).1 = .ok [(⟨1⟩, .ciphertext (imported.encrypt 1 nonce))] ∧
      (answer true).1 = .ok [(⟨1⟩, .ciphertext (generated.encrypt 1 nonce))] ∧
      imported.encrypt 1 nonce ≠ generated.encrypt 1 nonce := by
  have returns (moved : Bool) :
      (plan moved).MayReturn environment 1 supplied resources (answer moved) := by
    have graph : (plan moved).graph = graph :=
      (Plan.sound_of_prepare (Graph.wired_of_build built) (prepared moved)).2.1
    refine .of_chronicle ?_ (done moved).1
    rw [graph]
    exact bound moved
  refine ⟨⟨_, rfl, rfl⟩, cached, returns, (done false).2.2, (done true).2.2, answers false,
    answers true, fun same => ?_⟩
  have masks :=
    @KeySet.dot_eq_of_encrypt_eq generated imported 1 nonce rfl rfl (by decide +kernel) same
  exact absurd masks (by decide +kernel)

end Supplied

end HomCircuit
