import HomCircuit.Proofs.Key.Collision
import HomCircuit.Proofs.Schedule.Clock
import HomCircuit.Proofs.Schedule.Shape

/-!
# HomCircuit.Proofs.Schedule.Evaluation

What a call on the processor returns is what its graph evaluates to, whatever order its nodes ran in.

```
argument   ↦   the words that it is bound to
output     ↦   the operation on what the inputs evaluate to, under the nonce of node and inputs
```

The keys are those of a ring: one key set for each partition. A key manager hands them out as long
as all its answers for one partition agree.

* `Graph.Evaluates` — the recursive evaluation of a graph;
* `Plan.MayReturn.evaluates` — every answer of a call is an evaluation, or tells a failure;
* `Graph.call_evaluates` — the same for every graph that can be built, together with the facts that
  no interleaving gets stuck and that any two of them agree.
-/

namespace HomCircuit

/-- The words that an argument is bound to. -/
def Run.BindsTo (e : Environment) (supplied : List (ValueId × Value)) (v : ValueId)
    (partition : PartitionId) (ct : Ciphertext) : Prop :=
  Run.argument e supplied v partition = .ok (.ofHost v partition (.ciphertext ct))

/-- What the values of a graph evaluate to on the processor, under the keys of a ring. -/
def Graph.Evaluates (g : Graph) (e : Environment) (supplied : List (ValueId × Value))
    (ring : Partition → KeySet) : ValueId → Ciphertext → Prop :=
  g.Denotes (Run.BindsTo e supplied) fun n words ct =>
    n.Computes e (fun q k => k = ring q) words (.ok ct)

/-- A node fails: its partition is unknown, or it fails on what its inputs evaluate to. -/
def Graph.Fails (g : Graph) (e : Environment) (supplied : List (ValueId × Value))
    (ring : Partition → KeySet) (n : Node) (err : RunError) : Prop :=
  e.partition n.partition = .error err ∨
    ∃ words, List.Forall₂ (g.Evaluates e supplied ring) n.inputs words ∧
      n.Computes e (fun q k => k = ring q) words (.error err)

section Evaluates

variable {e : Environment} {supplied : List (ValueId × Value)} {ring : Partition → KeySet}

theorem eq_map_of_rel {source : Option Partition} {input : Option KeySet}
    (h : Option.Rel (fun q k => k = ring q) source input) : input = source.map ring := by
  cases h with
  | none => rfl
  | some same => rw [same, Option.map_some]

/-- A node computes one result at most. -/
theorem Node.Computes.unique {n : Node} {words : List Ciphertext} {ct ct' : Ciphertext}
    (h : n.Computes e (fun q k => k = ring q) words (.ok ct))
    (h' : n.Computes e (fun q k => k = ring q) words (.ok ct')) : ct = ct' := by
  generalize result : Except.ok ct = r at h
  generalize result' : Except.ok ct' = r' at h'
  cases h with
  | ran known source own other =>
      cases h' with
      | ran known' source' own' other' =>
          obtain rfl := Except.ok.inj (known.symm.trans known')
          obtain rfl := Except.ok.inj (source.symm.trans source')
          rw [own, eq_map_of_rel other] at result
          rw [own', eq_map_of_rel other'] at result'
          exact Except.ok.inj (result.trans result'.symm)
      | _ => simp at result'
  | _ => simp at result

/-- A value evaluates to one ciphertext at most. -/
theorem Graph.Evaluates.unique {g : Graph} (w : g.Wired) {v : ValueId} {ct ct' : Ciphertext}
    (h : g.Evaluates e supplied ring v ct) (h' : g.Evaluates e supplied ring v ct') : ct = ct' := by
  refine Denotes.unique w ?_ (fun n words a b => Node.Computes.unique) h h'
  intro v partition a b ha hb
  have same := Except.ok.inj (ha.symm.trans hb)
  simpa [Buffer.ofHost] using same

end Evaluates

/-! ## calls on the processor -/

section Call

variable {e : Environment} {p : Plan} {supplied : List (ValueId × Value)} {ring : Partition → KeySet}

/-- The processor as a backend that evaluates the graph of a call. -/
def Discipline.evaluation (sound : p.Sound) (processor : e.mode = .cpu)
    (reference : e.primitives = .reference) (home : p.options.assignment = [])
    (supplied : List (ValueId × Value)) (ring : Partition → KeySet) : Discipline e p :=
  .processor processor reference home (fun q k => k = ring q)
    (fun slot ct => p.graph.Evaluates e supplied ring (p.graph.valueAt slot) ct)
    (fun i => p.graph.Fails e supplied ring (p.graph.node i))
    (fun _ _ _ unknown => .inl unknown)
    (fun i alive words read result computed => by
      have inside := sound.live_lt i alive
      cases result with
      | ok ct => exact sound.wired.denotes_output inside read computed
      | error err =>
          refine .inr ⟨words, ?_, computed⟩
          rw [← sound.wired.inputs_values i inside]
          exact List.forall₂_map_left_iff.mpr read)

/-- Bound arguments are what the arguments evaluate to. -/
theorem Graph.Wired.admits_evaluation (w : p.graph.Wired) (processor : e.mode = .cpu) :
    Stock.Admits e p supplied (Holding .ciphertext fun slot ct =>
      p.graph.Evaluates e supplied ring (p.graph.valueAt slot) ct) := by
  intro k v partition b found _ bound
  obtain ⟨-, ct, -, rfl, -⟩ := Run.argument_processor processor bound
  refine ⟨.ciphertext ct, rfl, ct, rfl, ?_⟩
  change p.graph.Evaluates e supplied ring (p.graph.valueAt k) ct
  rw [w.valueAt_argument k _ found]
  exact .argument (Array.mem_of_getElem? found) bound

/-- What a call on the processor answers is what its graph evaluates to, or why it failed. -/
theorem Plan.MayReturn.evaluates (sound : p.Sound) (processor : e.mode = .cpu)
    (reference : e.primitives = .reference) (home : p.options.assignment = [])
    {resources : Resources} (keys : e.HandsOut (fun q k => k = ring q) resources) {run : Run}
    (bound : Run.bind e p supplied p.graph.arguments.toList (Run.initial p resources) =
      (.ok (), run)) {workers : Nat} {answer : Answer}
    (h : p.MayReturn e workers supplied resources answer) :
    (∃ values, answer.1 = .ok values ∧
        List.Forall₂ (fun q a => a.1 = q.1 ∧
          ∃ ct, a.2 = .ciphertext ct ∧ p.graph.Evaluates e supplied ring q.1 ct)
          p.requested values) ∨
      ∃ f : Failure, ∃ skipped, answer.1 = .error (.graphCancelled f.error f.node skipped) ∧
        f.Blames p fun i => p.graph.Fails e supplied ring (p.graph.node i) := by
  have kept :
      answer.Keeps (Discipline.evaluation sound processor reference home supplied ring).conduct :=
    h.keeps sound keys (sound.wired.admits_evaluation processor) bound
  obtain ⟨-, told⟩ := kept
  cases result : answer.1 with
  | error err =>
      rw [result] at told
      obtain ⟨f, skipped, blames, rfl⟩ := told
      exact .inr ⟨f, skipped, rfl, blames⟩
  | ok values =>
      rw [result] at told
      refine .inl ⟨values, rfl, ?_⟩
      have placed := (List.forall₂_and_left _ _).mpr ⟨sound.slots, told.1⟩
      refine placed.imp ?_
      rintro q a ⟨slot, name, ct, same, evaluates⟩
      rw [(Graph.valueAt_of_slot? slot).2] at evaluates
      exact ⟨name, ct, same, evaluates⟩

/-- The arguments of a call that answers values were accepted. -/
theorem Plan.MayReturn.bound_of_ok {resources : Resources} {workers : Nat} {answer : Answer}
    {values : List (ValueId × Value)} (h : p.MayReturn e workers supplied resources answer)
    (ok : answer.1 = .ok values) :
    ∃ run, Run.bind e p supplied p.graph.arguments.toList (Run.initial p resources) =
      (.ok (), run) := by
  cases h with
  | refused bound => simp [Run.finish] at ok
  | finished ms bound gone => exact ⟨_, bound⟩

/-- What is requested does not depend on the other choices of a caller. -/
theorem Plan.requested_eq {g : Graph} {o o' : CallOptions} {accelerating accelerating' : Bool}
    {p p' : Plan} (h : Plan.prepare g o accelerating = .ok p)
    (h' : Plan.prepare g o' accelerating' = .ok p') (same : o'.requested = o.requested) :
    p'.requested = p.requested := by
  simp only [Plan.prepare] at h h'
  rw [same] at h'
  cases found : Plan.resolve g [] o.requested with
  | error err => simp [found, Except.map] at h
  | ok requested =>
      simp only [found, Except.map, Except.ok.injEq] at h h'
      rw [← h, ← h']

/-- Values that evaluate the same requests are the same. -/
theorem eq_of_evaluates {g : Graph} (w : g.Wired) {requested : List (ValueId × Nat)}
    {values values' : List (ValueId × Value)}
    (h : List.Forall₂ (fun q a => a.1 = q.1 ∧
      ∃ ct, a.2 = .ciphertext ct ∧ g.Evaluates e supplied ring q.1 ct) requested values)
    (h' : List.Forall₂ (fun q a => a.1 = q.1 ∧
      ∃ ct, a.2 = .ciphertext ct ∧ g.Evaluates e supplied ring q.1 ct) requested values') :
    values = values' := by
  induction h generalizing values' with
  | nil =>
      cases h'
      rfl
  | cons first rest ih =>
      cases h' with
      | cons first' rest' =>
          obtain ⟨name, ct, words, evaluates⟩ := first
          obtain ⟨name', ct', words', evaluates'⟩ := first'
          have same := evaluates.unique w evaluates'
          have head := Prod.ext (name.trans name'.symm) (words.trans (same ▸ words'.symm))
          rw [head, ih rest']

/-- Two calls on the processor that answer the same requests from the same arguments under the keys
of one ring answer the same values, whatever their workers, interleavings and other choices. -/
theorem Plan.MayReturn.agree {p' : Plan} (sound : p.Sound) (sound' : p'.Sound)
    (graph : p'.graph = p.graph) (requested : p'.requested = p.requested)
    (processor : e.mode = .cpu) (reference : e.primitives = .reference)
    (home : p.options.assignment = []) (home' : p'.options.assignment = [])
    {resources resources' : Resources} (keys : e.HandsOut (fun q k => k = ring q) resources)
    (keys' : e.HandsOut (fun q k => k = ring q) resources') {workers workers' : Nat}
    {answer answer' : Answer} (h : p.MayReturn e workers supplied resources answer)
    (h' : p'.MayReturn e workers' supplied resources' answer')
    {values values' : List (ValueId × Value)} (ok : answer.1 = .ok values)
    (ok' : answer'.1 = .ok values') : values = values' := by
  obtain ⟨run, bound⟩ := h.bound_of_ok ok
  obtain ⟨run', bound'⟩ := h'.bound_of_ok ok'
  rcases h.evaluates sound processor reference home keys bound with
    ⟨_, eq, evaluates⟩ | ⟨f, skipped, failed, -⟩
  · rcases h'.evaluates sound' processor reference home' keys' bound' with
      ⟨_, eq', evaluates'⟩ | ⟨f, skipped, failed, -⟩
    · obtain rfl := Except.ok.inj (ok.symm.trans eq)
      obtain rfl := Except.ok.inj (ok'.symm.trans eq')
      rw [graph, requested] at evaluates'
      exact eq_of_evaluates sound.wired evaluates evaluates'
    · rw [ok'] at failed
      contradiction
  · rw [ok] at failed
    contradiction

end Call

/-! ## a graph whose keys may collide -/

namespace Collision.Additions

/-- Two additions of one constant to one argument, with a node of another partition in between. -/
def nodes : List Node :=
  [{ id := ⟨0⟩, op := .addPlain 1, inputs := [⟨0⟩], output := ⟨10⟩, partition := ⟨0⟩ },
    { id := ⟨1⟩, op := .neg, inputs := [⟨1⟩], output := ⟨11⟩, partition := ⟨1⟩ },
    { id := ⟨2⟩, op := .addPlain 1, inputs := [⟨0⟩], output := ⟨12⟩, partition := ⟨0⟩ }]

def arguments : List (ValueId × PartitionId) := [(⟨0⟩, ⟨0⟩), (⟨1⟩, ⟨1⟩)]

def graph : Graph := Graph.wire nodes arguments

def environment : Environment :=
  { partitions := (Registry.empty.add base).add other, seed := {}, mode := .cpu
    primitives := .reference, cpuFallback := true, token := ⟨0, none⟩ }

def options : CallOptions :=
  { requested := [⟨10⟩, ⟨11⟩, ⟨12⟩], deterministic := true, elide := false }

def plan : Plan := (Plan.prepare graph options false).toOption.getD default

def supplied : List (ValueId × Value) := [(⟨0⟩, .cleartext 3), (⟨1⟩, .cleartext 0)]

/-- Room for one key set, and none in it. -/
def fresh : Resources := { keys := .empty 1 }

/-- Room for one key set, and that of a colliding partition in it. -/
def stale : Resources := { keys := ((KeyCache.empty 1).getOrCreate coarse {}).2 }

/-- The call with its arguments in place. -/
def begun (resources : Resources) : Run :=
  (Run.bind environment plan supplied graph.arguments.toList (Run.initial plan resources)).2

/-- One worker has done everything. -/
def ended (resources : Resources) : Crew :=
  (Plan.crew (begun resources) 1).moves environment plan (List.replicate 60 (.worker 0))

/-- What the call answers. -/
def answer (resources : Resources) : Answer := (ended resources).run.finish plan (.ok ())

theorem built : Graph.build nodes arguments = .ok graph :=
  Graph.build_eq_ok (by decide) (by decide +kernel)

theorem prepared : Plan.prepare graph options false = .ok plan :=
  Except.eq_ok_of_isOk (by decide +kernel)

theorem graph_plan : plan.graph = graph :=
  (Plan.sound_of_prepare (Graph.wired_of_build built) prepared).2.1

theorem bound {resources : Resources}
    (h : (Run.bind environment plan supplied graph.arguments.toList
      (Run.initial plan resources)).1.isOk = true) :
    Run.bind environment plan supplied graph.arguments.toList (Run.initial plan resources) =
      (.ok (), begun resources) :=
  Prod.ext (Except.eq_ok_of_isOk h) rfl

theorem distinct : environment.partitions.Distinct := by
  intro p hp q hq same
  have known : ∀ p ∈ environment.partitions.partitions, p = base ∨ p = other := by
    simp [environment, Registry.add, Registry.empty]
  rcases known p hp with rfl | rfl <;> rcases known q hq with rfl | rfl <;>
    first | rfl | simp [other, base] at same

/-- The ciphertexts of an answer. -/
def ciphertexts (answer : Answer) : Option (List (ValueId × Option Ciphertext)) :=
  answer.1.toOption.map fun values => values.map fun a => (a.1, a.2.ciphertext?)

/-- The arguments are accepted, and one worker comes to an end with some ciphertexts. -/
@[mk_iff]
structure Succeeds (resources : Resources) (words : List Ciphertext) : Prop where
  accepted : (Run.bind environment plan supplied graph.arguments.toList
    (Run.initial plan resources)).1.isOk = true
  gone : (ended resources).allGone = true
  ok : (answer resources).1.isOk = true
  told : ciphertexts (answer resources) =
    some (([⟨10⟩, ⟨11⟩, ⟨12⟩] : List ValueId).zip (words.map some))

theorem Succeeds.returns {resources : Resources} {words : List Ciphertext}
    (h : Succeeds resources words) :
    plan.MayReturn environment 1 supplied resources (answer resources) := by
  refine .finished _ ?_ h.gone
  rw [graph_plan]
  exact bound h.accepted

/-- With a fresh key manager, both additions come to the same ciphertext. -/
theorem succeeds_fresh : Succeeds fresh
    [[0, 0, 0, 0, 0x2000000000000000], [0, 0, 0, 0, 0], [0, 0, 0, 0, 0x2000000000000000]] :=
  (succeeds_iff _ _).mpr (by decide +kernel)

/-- With the keys of a colliding partition in the cache, they come to different ones. -/
theorem succeeds_stale : Succeeds stale
    [[0, 0, 0, 0, 0x2800000000000000], [0, 0, 0, 0, 0], [0, 0, 0, 0, 0x2000000000000000]] :=
  (succeeds_iff _ _).mpr (by decide +kernel)

/-- A fresh key manager hands out generated keys. -/
theorem handsOut_fresh : environment.HandsOut (fun q k => k = KeySet.ofSeed q {}) fresh :=
  KeyCache.answers_of_holds distinct (fun _ _ _ => rfl) (KeyCache.holds_empty 1)

/-- An addition of a constant does not see the node that it is made for. -/
theorem addPlain_unique {ring : Partition → KeySet} {n m : Node} {c : UInt64}
    {words : List Ciphertext} {ct ct' : Ciphertext} (hn : n.op = .addPlain c)
    (hm : m.op = .addPlain c) (partition : n.partition = m.partition)
    (h : n.Computes environment (fun q k => k = ring q) words (.ok ct))
    (h' : m.Computes environment (fun q k => k = ring q) words (.ok ct')) : ct = ct' := by
  generalize result : Except.ok ct = r at h
  generalize result' : Except.ok ct' = r' at h'
  cases h with
  | ran known source own other =>
      cases h' with
      | ran known' source' own' other' =>
          rw [partition] at known
          obtain rfl := Except.ok.inj (known.symm.trans known')
          simp only [sourcePartition, hn, hm, Except.ok.injEq] at source source'
          subst source
          subst source'
          rw [own, eq_map_of_rel other, hn] at result
          rw [own', eq_map_of_rel other', hm] at result'
          have same : ∀ keys nonce nonce', Primitive.run (.addPlain c) words keys nonce =
              Primitive.run (.addPlain c) words keys nonce' := fun _ _ _ => rfl
          rw [same _ _ 0] at result result'
          have ran := Except.eq_ok_of_mapError result.symm
          exact Except.ok.inj (ran.symm.trans (Except.eq_ok_of_mapError result'.symm))
      | _ => simp at result'
  | _ => simp at result

/-- The two additions evaluate to the same ciphertext, whatever the keys. -/
theorem additions_evaluate_equal {ring : Partition → KeySet} {ct ct' : Ciphertext}
    (h : graph.Evaluates environment supplied ring ⟨10⟩ ct)
    (h' : graph.Evaluates environment supplied ring ⟨12⟩ ct') : ct = ct' := by
  have w := Graph.wired_of_build built
  obtain ⟨words, read, made⟩ := Graph.Denotes.inputs w
    (show nodes[0] ∈ graph.nodes by simp [graph, Graph.wire, nodes]) h
  obtain ⟨words', read', made'⟩ := Graph.Denotes.inputs w
    (show nodes[2] ∈ graph.nodes by simp [graph, Graph.wire, nodes]) h'
  have same : words = words' := by
    refine Graph.eq_of_forall₂ ?_ read'
    exact read.imp fun v a ha b hb => Graph.Evaluates.unique w ha hb
  subst same
  exact addPlain_unique (n := nodes[0]) (m := nodes[2]) rfl rfl rfl made made'

end Collision.Additions

/-! ## schedule independence -/

/-- A call on the processor whose key manager answers all requests for one partition with one key set
cannot get stuck, and every way in which its workers take turns answers what the graph evaluates to,
unless the call was cancelled or a node failed. The schedule by the clock is one of these ways, and any
two calls that answer agree on the values. -/
theorem Graph.call_evaluates {nodes : List Node} {arguments : List (ValueId × PartitionId)}
    {g : Graph} (built : Graph.build nodes arguments = .ok g) {e : Environment}
    (processor : e.mode = .cpu) (reference : e.primitives = .reference) {o : CallOptions}
    (home : o.assignment = []) {p : Plan} (prepared : Plan.prepare g o false = .ok p)
    {supplied : List (ValueId × Value)} {resources : Resources} {run : Run}
    (bound : Run.bind e p supplied g.arguments.toList (Run.initial p resources) = (.ok (), run))
    {ring : Partition → KeySet} (keys : e.HandsOut (fun q k => k = ring q) resources) :
    -- wherever an interleaving has come to, the workers can go on until all of them are gone
    (∀ workers ms, ∃ ks : List Nat, p.MayReturn e workers supplied resources
      (((Plan.crew run workers).moves e p (ms ++ ks.map .worker)).run.finish p (.ok ()))) ∧
    -- what is answered is what the graph evaluates to
    (∀ workers answer, p.MayReturn e workers supplied resources answer →
      (∃ values, answer.1 = .ok values ∧
          List.Forall₂ (fun q a => a.1 = q.1 ∧
            ∃ ct, a.2 = .ciphertext ct ∧ g.Evaluates e supplied ring q.1 ct)
            p.requested values) ∨
        ∃ f : Failure, ∃ skipped, answer.1 = .error (.graphCancelled f.error f.node skipped) ∧
          f.Blames p fun i => g.Fails e supplied ring (g.node i)) ∧
    -- and does not depend on the schedule
    (∀ o' p', o'.requested = o.requested → o'.assignment = [] → Plan.prepare g o' false = .ok p' →
      ∀ workers workers' answer answer' values values',
        p.MayReturn e workers supplied resources answer →
        p'.MayReturn e workers' supplied resources answer' →
        answer.1 = .ok values → answer'.1 = .ok values' → values = values') ∧
    -- the schedule by the clock is one of these
    ∀ workers, p.MayReturn e workers supplied resources (p.execute e workers supplied resources) := by
  have w := wired_of_build built
  obtain ⟨sound, rfl, options⟩ := Plan.sound_of_prepare w prepared
  have home' : p.options.assignment = [] := by rw [options, home]
  refine ⟨fun workers ms => ?_, fun workers answer h => ?_, ?_, fun workers => ?_⟩
  · exact Plan.exists_answer (D := .evaluation sound processor reference home' supplied ring) sound
      keys (sound.wired.admits_evaluation processor) bound workers ms
  · exact h.evaluates sound processor reference home' keys bound
  · intro o' p' same home'' prepared' workers workers' answer answer' values values' h h' ok ok'
    obtain ⟨sound', graph, options'⟩ := Plan.sound_of_prepare w prepared'
    exact h.agree sound sound' graph (Plan.requested_eq prepared prepared' same) processor reference
      home' (by rw [options', home'']) keys keys h' ok ok'
  · exact Plan.execute_mayReturn (D := .evaluation sound processor reference home' supplied ring) sound
      (Environment.duration_reference reference) keys (sound.wired.admits_evaluation processor) workers

namespace Collision.Additions

/-- A fresh key manager hands out generated keys, and one worker answers what the graph evaluates to
under them. -/
theorem call_evaluates_fresh :
    environment.HandsOut (fun q k => k = KeySet.ofSeed q {}) fresh ∧
      plan.MayReturn environment 1 supplied fresh (answer fresh) ∧
      ((∃ values : List (ValueId × Value), (answer fresh).1 = .ok values ∧
          List.Forall₂ (fun q a => a.1 = q.1 ∧
            ∃ ct, a.2 = .ciphertext ct ∧
              graph.Evaluates environment supplied (KeySet.ofSeed · {}) q.1 ct)
            plan.requested values) ∨
        ∃ f : Failure, ∃ skipped,
          (answer fresh).1 = .error (.graphCancelled f.error f.node skipped) ∧
            f.Blames plan fun i =>
              graph.Fails environment supplied (KeySet.ofSeed · {}) (graph.node i)) := by
  have accepted := bound succeeds_fresh.accepted
  have answered := succeeds_fresh.returns
  exact ⟨handsOut_fresh, answered,
    (Graph.call_evaluates built rfl rfl rfl prepared accepted handsOut_fresh).2.1 1 _ answered⟩

/-- With the keys of a colliding partition in its cache, the key manager hands out two key sets for
one partition, so that equal additions to one argument answer different ciphertexts. -/
theorem stale_keys_differ :
    Graph.build nodes arguments = .ok graph ∧ Plan.prepare graph options false = .ok plan ∧
      plan.MayReturn environment 1 supplied stale (answer stale) ∧
      (answer stale).1.isOk = true ∧
      ∀ ring, ¬∃ values : List (ValueId × Value), (answer stale).1 = .ok values ∧
        List.Forall₂ (fun q a => a.1 = q.1 ∧
          ∃ ct, a.2 = .ciphertext ct ∧ graph.Evaluates environment supplied ring q.1 ct)
          plan.requested values := by
  refine ⟨built, prepared, succeeds_stale.returns, succeeds_stale.ok, ?_⟩
  rintro ring ⟨values, ok, evaluates⟩
  have told : ciphertexts (answer stale) =
      some [(⟨10⟩, some [0, 0, 0, 0, 0x2800000000000000]), (⟨11⟩, some [0, 0, 0, 0, 0]),
        (⟨12⟩, some [0, 0, 0, 0, 0x2000000000000000])] := succeeds_stale.told
  have requested : plan.requested = [(⟨10⟩, 2), (⟨11⟩, 3), (⟨12⟩, 4)] := by decide +kernel
  rw [requested] at evaluates
  obtain ⟨a, as, ⟨-, ct, words, first⟩, rest, rfl⟩ := List.forall₂_cons_left_iff.mp evaluates
  obtain ⟨b, bs, -, rest', rfl⟩ := List.forall₂_cons_left_iff.mp rest
  obtain ⟨c, cs, ⟨-, ct', words', last⟩, none, rfl⟩ := List.forall₂_cons_left_iff.mp rest'
  obtain rfl := List.forall₂_nil_left_iff.mp none
  have same := additions_evaluate_equal first last
  simp only [ciphertexts, ok, Except.toOption, Option.map_some, List.map_cons, List.map_nil, words,
    words', Value.ciphertext?, Option.some.injEq, List.cons.injEq, Prod.mk.injEq] at told
  rw [told.1.2, told.2.2.1.2] at same
  exact absurd same (by decide)

end Collision.Additions

end HomCircuit
