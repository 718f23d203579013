import HomCircuit.Proofs.Context.Legacy
import HomCircuit.Proofs.Program.Fallback
import HomCircuit.Proofs.Schedule.Elision

/-!
# HomCircuit.Proofs.Program.Independence

A call of a program does not depend on what has happened to its context before.

```
fresh context     ──── history ────▸   context     ── call ──▸   the same values,
another one, with other capacities     ─────────── call ──▸      or an error in both
```

The cache may be full, or may have lost any of its keys; what it hands out was generated under the seed
of the context, as in a fresh one. Names and fingerprints tell partitions apart in the cache, so the ones
of the program must not share theirs with others that were asked for.

* `Evaluator.outcome_unique` — the outcome of a plan does not depend on resources, tokens or workers;
* `Program.history_independent` — nor does that of a call depend on the history of its context.
-/

namespace HomCircuit

/-! ## calls of a plan -/

/-- Two calls of a plan, neither of which tells of a cancellation, answer the same values, or both fail. -/
theorem Evaluator.outcome_unique {e : Environment} {α : Type} (E : Evaluator e α) {p : Plan}
    (sound : p.Sound) (home : p.options.assignment = []) {resources resources' : Resources}
    (kept : E.kept resources) (kept' : E.kept resources') {supplied : List (ValueId × Value)}
    {token : CancelToken} {workers workers' : Nat} {a a' : Answer}
    (h : p.MayReturn e workers supplied resources a)
    (h' : p.MayReturn { e with token } workers' supplied resources' a')
    (uncancelled : ¬WasCancelled a.1) (uncancelled' : ¬WasCancelled a'.1) :
    a.1.toOption = a'.1.toOption := by
  cases ok : a.1 with
  | ok values =>
      obtain ⟨-, -, -, answers⟩ := E.preserves sound sound rfl rfl (fun _ => id) home home kept kept' h
        ok token workers'
      rw [(answers a' h').resolve_right uncancelled']
  | error err =>
      cases ok' : a'.1 with
      | error err' => rfl
      | ok values =>
          obtain ⟨-, -, -, answers⟩ := (E.withToken token).preserves sound sound rfl rfl (fun _ => id)
            home home kept' kept h' ok' e.token workers
          rw [(answers a h).resolve_right uncancelled] at ok
          contradiction

/-! ## contexts without devices -/

namespace Context

variable {c d : Context}

/-- Where keys matter, the key manager of some resources hands out those of a ring. -/
def Rings (c : Context) (registry : Registry) (ring : Partition → KeySet) (r : Resources) : Prop :=
  c.mode = .cpu → r.keys.Answers registry c.options.seed fun q k => k = ring q

/-- Without devices, a node is a function of what it reads, as long as the key manager hands out the keys
of a ring. -/
theorem exists_evaluator (host : c.mode ≠ .accelerator) (registry : Registry) (t : CancelToken)
    (ring : Partition → KeySet) :
    ∃ (α : Type) (E : Evaluator (c.environment registry t) α),
      ∀ r, c.Rings registry ring r → E.kept r := by
  cases mode : c.mode with
  | accelerator => exact absurd mode host
  | cpu => exact ⟨_, .processor mode ring, fun _ keys => keys mode⟩
  | simulation => exact ⟨_, .simulation mode, fun _ _ => trivial⟩

/-- Two contexts with the same options, but for the room for keys and the number of workers. -/
structure Alike (c d : Context) : Prop where
  primitives : d.primitives = c.primitives
  options : ∃ cacheCapacity parallelism, d.options = { c.options with cacheCapacity, parallelism }

/-- Calls in them see the same, but for their tokens. -/
theorem Alike.environment (alike : c.Alike d) (registry : Registry) (t t' : CancelToken) :
    d.environment registry t' = { c.environment registry t with token := t' } := by
  obtain ⟨primitives, cacheCapacity, parallelism, options⟩ := alike
  simp only [Context.environment, Context.mode, primitives, options]
  rfl

/-- A call of a graph that nobody cancels does not tell of a cancellation. -/
theorem uncancelled_executed {g : Graph} (wired : g.Wired) {partitions : Registry}
    {supplied : List (ValueId × Value)} {o : CallOptions} {t : CancelToken}
    (silent : ∀ op, c.primitives.signals op = [])
    (now : c.resources.cancellation.isCancelled t = false) :
    ¬WasCancelled (c.executed g partitions supplied o t).1 := by
  rintro ⟨skipped, told⟩
  unfold Context.executed Context.execute at told
  split at told
  · exact RunError.noConfusion (Except.error.inj told)
  · split at told
    · next err unprepared =>
        obtain ⟨v, rfl⟩ := Program.prepare_error unprepared
        exact RunError.noConfusion (Except.error.inj told)
    · next plan prepared =>
        obtain ⟨sound, -, -⟩ := Plan.sound_of_prepare wired prepared
        exact absurd told (Plan.uncancelled_execute sound silent now)

end Context

/-! ## calls of programs -/

namespace Program

/-- Picking values tells of no cancellation. -/
theorem wasCancelled_of_pick {r : Except RunError (List (ValueId × Value))} {ids : List ValueId}
    (h : WasCancelled (r.bind (pick · ids))) : WasCancelled r := by
  obtain ⟨skipped, told⟩ := h
  cases r with
  | error err => exact ⟨skipped, congrArg Except.error (Except.error.inj told)⟩
  | ok values =>
      obtain ⟨v, same⟩ := pick_error told
      contradiction

variable {p : Program} {inputs : List Value} {o : CallChoice} {c d : Context}
  {r r' : Except RunError (List Value) × Trace × Context} {ring : Partition → KeySet}

/-- Two calls in contexts whose key managers hand out the same keys, neither of which tells of a
cancellation, answer the same values, or both fail. -/
theorem Checked.outcome_unique (checked : p.Checked) (host : c.mode ≠ .accelerator)
    (live : c.shut = false) (live' : d.shut = false) (alike : c.Alike d)
    (keys : c.Rings p.partitions ring c.resources) (keys' : c.Rings p.partitions ring d.resources)
    (home : o.assignment = []) {token : Option CancelToken} (h : p.MayCall inputs o c r)
    (h' : p.MayCall inputs { o with token } d r') (uncancelled : ¬WasCancelled r.1)
    (uncancelled' : ¬WasCancelled r'.1) : r.1.toOption = r'.1.toOption := by
  have settings : p.settings { o with token } d = p.settings o c := by
    obtain ⟨-, cacheCapacity, parallelism, options⟩ := alike
    simp only [Program.settings, options]
    rfl
  have host' : d.mode ≠ .accelerator := by
    obtain ⟨-, cacheCapacity, parallelism, options⟩ := alike
    rwa [Context.mode, options]
  by_cases refuses : p.Refuses inputs o c
  · have refuses' : p.Refuses inputs { o with token } d := by rwa [Refuses, settings]
    obtain ⟨-, nothing⟩ := h.refused home live host refuses
    obtain ⟨-, nothing'⟩ := h'.refused home live' host' refuses'
    rw [Except.toOption_eq_none nothing, Except.toOption_eq_none nothing']
  · have refuses' : ¬p.Refuses inputs { o with token } d := by rwa [Refuses, settings]
    obtain ⟨plan, t, cancellation, workers, a, prepared, returns, rfl⟩ :=
      h.ran home live host refuses
    obtain ⟨plan', t', cancellation', workers', a', prepared', returns', rfl⟩ :=
      h'.ran home live' host' refuses'
    rw [settings] at prepared'
    obtain rfl := Except.ok.inj (prepared.symm.trans prepared')
    obtain ⟨sound, -, options⟩ := Plan.sound_of_prepare checked.wired prepared
    have home' : plan.options.assignment = [] := by rw [options]; exact home
    obtain ⟨α, E, kept⟩ := c.exists_evaluator host p.partitions t ring
    rw [alike.environment p.partitions t t'] at returns'
    have same := E.outcome_unique sound home' (kept { c.resources with cancellation } keys)
      (kept { d.resources with cancellation := cancellation' } keys') returns returns'
      (fun told => uncancelled (wasCancelled_pick told))
      (fun told => uncancelled' (wasCancelled_pick told))
    rw [Except.toOption_bind, Except.toOption_bind, same]
    rfl

/-- While primitives take no time, the call by the clock in a context without devices is one that may
happen. -/
theorem Checked.mayCall_host (checked : p.Checked) (host : c.mode ≠ .accelerator)
    (quick : ∀ op, c.primitives.delay op = 0)
    (keys : c.Rings p.partitions ring c.resources) (home : o.assignment = []) :
    p.MayCall inputs o c (p.callWith inputs o c) := by
  refine mayCall_of_returns fun plan t cancellation workers prepared => ?_
  obtain ⟨sound, -, options⟩ := Plan.sound_of_prepare checked.wired prepared
  have home' : plan.options.assignment = [] := by rw [options]; exact home
  obtain ⟨α, E, kept⟩ := c.exists_evaluator host p.partitions t ring
  refine Plan.execute_mayReturn (D := E.discipline sound home' (p.supply inputs)) sound (fun calls => ?_)
    (kept { c.resources with cancellation } keys) (E.admits sound.wired) workers
  refine List.foldlRecOn (motive := (· = 0)) calls _ rfl fun time none call _ => ?_
  rw [none, Nat.zero_add]
  exact quick call.op

/-- A call by the clock with a fresh token that nobody cancels does not tell of a cancellation. -/
theorem Checked.uncancelled_callWith (checked : p.Checked) (home : o.assignment = [])
    (silent : ∀ op, c.primitives.signals op = []) (own : o.token = none)
    (now : (c.begin none).2.isCancelled (c.begin none).1 = false) :
    ¬WasCancelled (p.callWith inputs o c).1 := by
  by_cases count : inputs.length = p.inputs.length
  · have eq := callWith_eq (o := o) (c := c) count (by rw [home]; rfl)
    obtain ⟨cancellation, same⟩ := c.exists_begin none
    rw [own] at eq
    generalize c.begin none = begun at eq now same
    obtain ⟨t, c'⟩ := begun
    rw [eq]
    refine fun told => Context.uncancelled_executed checked.wired ?_ now (wasCancelled_of_pick told)
    rwa [same]
  · rintro ⟨skipped, told⟩
    simp [callWith, if_pos count, inputShape] at told

/-- In a context on the processor or on stand-ins, whatever has happened to it since its start, a call of a
loaded program without remote workers comes to what it comes to in a fresh context with the same options,
whatever the two contexts' room for keys and numbers of workers are: unless a call tells of a cancellation,
both answer the same values, or both fail. On the processor this takes that no other partition asked for
before shares name and fingerprint with one of the program. What was cancelled before does not cancel a
fresh token. The workers of the call can always go on to an answer, and it tells of a cancellation only if
its token was cancelled while they ran. While primitives take no time and cancel nothing, the two calls by
the clock are among these. -/
theorem history_independent {asked : Partition → Prop} {co : ContextOptions}
    (host : co.mode ≠ .accelerator) {ps : Primitives} {devices devices' : List Device}
    {c₀ c d : Context} (fresh : Context.start co ps devices = .done c₀)
    (history : c₀.Reaches asked c) {cacheCapacity parallelism : Nat}
    (other : Context.start { co with cacheCapacity, parallelism } ps devices' = .done d)
    {artifact : Artifact} (loaded : load artifact = .ok p)
    (apart : co.mode = .cpu → ∀ q ∈ p.partitions.partitions, ∀ q', asked q' → q'.name = q.name →
      q'.fingerprint = q.fingerprint → q' = q)
    (inputs : List Value) {o : CallChoice} (home : o.assignment = []) (token : Option CancelToken) :
    -- the same values, or no values
    (∀ r r', p.MayCall inputs o c r → p.MayCall inputs { o with token } d r' →
      ¬WasCancelled r.1 → ¬WasCancelled r'.1 → r.1.toOption = r'.1.toOption) ∧
    -- a fresh token is not cancelled
    (c.begin none).2.isCancelled (c.begin none).1 = false ∧
    -- wherever a call has come to, it can go on, and is cancelled only from now on
    (∀ t c' plan run, c.begin o.token = (t, c') →
      Plan.prepare p.graph (p.settings o c') (c'.mode = .accelerator && c'.resources.hasDevices) =
        .ok plan →
      let e := c'.environment p.partitions t
      Run.bind e plan (p.supply inputs) plan.graph.arguments.toList (Run.initial plan c'.resources) =
        (.ok (), run) →
      ∀ workers ms,
        (∃ ks : List Nat, plan.MayReturn e workers (p.supply inputs) c'.resources
          (((Plan.crew run workers).moves e plan (ms ++ ks.map .worker)).run.finish plan (.ok ()))) ∧
        (WasCancelled (((Plan.crew run workers).moves e plan ms).run.finish plan (.ok ())).1 →
          ∃ before, before <+: ms ∧ ((Plan.crew run workers).moves e plan
            before).run.resources.cancellation.isCancelled t = true)) ∧
    -- calls by the clock
    ((∀ op, ps.signals op = []) → (∀ op, ps.delay op = 0) → o.token = none →
      (p.callWith inputs o c).1.toOption = (p.callWith inputs { o with token := none } d).1.toOption) := by
  have checked := checked_of_load loaded
  have clean := Context.clean_of_reaches fresh history
  obtain ⟨options, primitives, shut⟩ := history.unchanged
  obtain ⟨remotes, rfl⟩ := Context.eq_of_start fresh
  have clean' := Context.clean_of_reaches other (.refl (r := Context.Step asked))
  obtain ⟨remotes', rfl⟩ := Context.eq_of_start other
  replace options : c.options = co := options
  replace primitives : c.primitives = ps := primitives
  subst options primitives
  let d : Context :=
    { options := { c.options with cacheCapacity, parallelism }, primitives := c.primitives
      resources :=
        { keys := .empty cacheCapacity
          inventory := Context.inventory? { c.options with cacheCapacity, parallelism } c.primitives devices'
          remotes := remotes' } }
  have alike : c.Alike d := ⟨rfl, cacheCapacity, parallelism, rfl⟩
  let ring (q : Partition) : KeySet := KeySet.ofSeed q c.options.seed
  have keys : c.Rings p.partitions ring c.resources := fun processor =>
    clean.answers checked.sane.distinct (apart processor)
  have keys' : c.Rings p.partitions ring d.resources := fun processor =>
    clean'.answers checked.sane.distinct (apart processor)
  have uncancelled := Context.isCancelled_begin clean
  refine ⟨fun r r' h h' => checked.outcome_unique host shut rfl alike keys keys' home h h',
    uncancelled, ?_, fun silent quick own => ?_⟩
  · intro t c' plan run begun prepared e bound workers ms
    obtain ⟨sound, -, settled⟩ := Plan.sound_of_prepare checked.wired prepared
    have home' : plan.options.assignment = [] := by rw [settled]; exact home
    obtain ⟨cancellation, same⟩ := c.exists_begin o.token
    rw [begun] at same
    obtain rfl : c' = { c with resources := { c.resources with cancellation } } := same
    obtain ⟨α, E, kept⟩ := c.exists_evaluator host p.partitions t ring
    refine ⟨Plan.exists_answer (D := E.discipline sound home' (p.supply inputs)) sound
      (kept { c.resources with cancellation } keys) (E.admits sound.wired) bound workers ms, ?_⟩
    rintro ⟨skipped, told⟩
    exact Plan.cancelled_of_finish sound bound told
  · exact checked.outcome_unique host shut rfl alike keys keys' home
      (checked.mayCall_host host quick keys home)
      (checked.mayCall_host (c := d) host quick keys' home)
      (checked.uncancelled_callWith home silent own uncancelled)
      (checked.uncancelled_callWith (c := d) (o := { o with token := none }) home silent rfl
        (Context.isCancelled_begin clean'))

end Program

/-! ## one program after another -/

namespace Collision.Sequel

open Exhaustion (alone cases_of_alone mayCall_of_alone)
open Negation (program inputs context fresh failure?)

/-- A call whose only worker makes some moves is part of a history. -/
theorem reaches_of_alone {p : Program} (checked : p.Checked) {inputs : List Value} {c : Context}
    {moves : Nat} {r : Except RunError (List Value) × Trace × Context}
    (h : alone p inputs c moves = some r) :
    c.Reaches (· ∈ p.partitions.partitions) r.2.2 := by
  obtain ⟨plan, run, prepared, bound, gone, rfl⟩ := cases_of_alone h
  have known : ∀ o ∈ (List.replicate moves (Move.worker 0)).map Occurrence.move,
      o.Known (c.begin none).2.issued := by
    intro o mem
    obtain ⟨m, all, rfl⟩ := List.mem_map.mp mem
    rw [List.eq_of_mem_replicate all]
    trivial
  rw [← Crew.occurs_moves] at gone
  have ends := Plan.MayEnd.finished _ known bound gone
  rw [Crew.occurs_moves] at ends
  have begun : c.Reaches (· ∈ p.partitions.partitions) (c.begin none).2 :=
    Context.reaches_begin nofun
  exact begun.tail (.call checked.wired (fun q mem => mem) prepared ends)

/-- One negation of longer ciphertexts. -/
def artifact : Artifact :=
  { Negation.artifact with
    partitions :=
      [{ name := "P", lweDim := 1, glweDim := 1, polySize := 8
         lweNoise := some ⟨0x29150b1917280808⟩, glweNoise := some ⟨0x0303396c3e6e161b⟩ }] }

def earlier : Program := (Program.load artifact).toOption.getD default

/-- A context with two workers and room for one key set. -/
def small : Context :=
  { context (.empty 1) with
    options := { (context fresh).options with cacheCapacity := 1, parallelism := 2 } }

theorem loaded : Program.load artifact = .ok earlier := Except.eq_ok_of_isOk (by decide +kernel)

/-- What calls come to: in fresh contexts, after the same call, and after the earlier one. -/
theorem outcomes :
    inputs.length = earlier.inputs.length ∧
    (alone program inputs (context fresh) 20).map (failure? ·.1) = some none ∧
    (alone program inputs small 20).map (failure? ·.1) = some none ∧
    ((alone program inputs (context fresh) 20).bind fun r => (alone program inputs r.2.2 20).map
      (failure? ·.1)) = some none ∧
    ((alone earlier inputs (context fresh) 20).bind fun r => (alone program inputs r.2.2 20).map
      fun r' => (failure? r.1, failure? r'.1)) =
      some (none, some (.graphCancelled
        (.nodeExecution ⟨0⟩ "Ciphertext has 5 words, expected 9 (neg)") (some ⟨0⟩) 0)) := by
  decide +kernel

theorem count_inputs : inputs.length = program.inputs.length := Negation.accepted.length_eq.symm

theorem exists_of_failure? {α : Type} {r : Except RunError α} (h : failure? r = none) :
    ∃ a, r = .ok a := by
  cases r with
  | error err => contradiction
  | ok a => exact ⟨a, rfl⟩

/-- A program runs to its end, and another one after it. -/
theorem happen_in_turn {p : Program} (checked : p.Checked)
    (fits : inputs.length = p.inputs.length) {α : Type}
    {f : Except RunError (List Value) → Except RunError (List Value) → α} {a : α}
    (told : ((alone p inputs (context fresh) 20).bind fun r => (alone program inputs r.2.2 20).map
      fun r' => f r.1 r'.1) = some a) :
    ∃ r r', p.MayCall inputs {} (context fresh) r ∧
      (context fresh).Reaches (· ∈ p.partitions.partitions) r.2.2 ∧
      program.MayCall inputs {} r.2.2 r' ∧ f r.1 r'.1 = a := by
  obtain ⟨r, before, told⟩ := Option.bind_eq_some_iff.mp told
  obtain ⟨r', after, told⟩ := Option.map_eq_some_iff.mp told
  have history := reaches_of_alone checked before
  obtain ⟨-, -, shut⟩ := history.unchanged
  exact ⟨r, r', mayCall_of_alone fits rfl before, history, mayCall_of_alone count_inputs shut after, told⟩

/-- After a call of its own the negation comes to what it comes to in a fresh context with room for one
key set. -/
theorem history_independent_again :
    ∃ r r' r₀ xs, program.MayCall inputs {} (context fresh) r ∧
      program.MayCall inputs {} r.2.2 r' ∧ program.MayCall inputs {} small r₀ ∧
      r'.1 = .ok xs ∧ r₀.1 = .ok xs := by
  obtain ⟨-, -, alone', again, -⟩ := outcomes
  have checked := Program.checked_of_load Negation.loaded
  obtain ⟨r₀, called, answered⟩ := Option.map_eq_some_iff.mp alone'
  obtain ⟨r, r', first, history, second, answered'⟩ :=
    happen_in_turn (f := fun _ x => failure? x) checked count_inputs again
  have happens := mayCall_of_alone count_inputs rfl called
  have start : Context.start (context fresh).options .reference [] = .done (context fresh) := rfl
  have other : Context.start { (context fresh).options with cacheCapacity := 1, parallelism := 2 }
      .reference [] = .done small := rfl
  have host : (context fresh).options.mode ≠ .accelerator := by decide
  have home : ({} : CallChoice).assignment = [] := rfl
  obtain ⟨outcome, -⟩ := Program.history_independent host start history other Negation.loaded
    (fun _ q known q' known' name _ => checked.sane.distinct q' known' q known name) inputs home none
  have same := outcome r' r₀ second happens (Negation.not_failed answered').1
    (Negation.not_failed answered).1
  obtain ⟨xs, ok⟩ := exists_of_failure? answered'
  rw [ok] at same
  exact ⟨r, r', r₀, xs, first, second, happens, ok, Except.eq_ok_of_toOption same.symm⟩

/-- A call of a program whose partition collides with that of the negation succeeds, and the negation then
fails, though nobody cancels it and it succeeds in the context as it was before. -/
theorem earlier_call_matters :
    Program.load Negation.artifact = .ok program ∧ Program.load artifact = .ok earlier ∧
      Context.start (context fresh).options .reference [] = .done (context fresh) ∧
      (context fresh).mode = .cpu ∧
      ∃ r r' r₀, earlier.MayCall inputs {} (context fresh) r ∧ (∃ xs, r.1 = .ok xs) ∧
        program.MayCall inputs {} (context fresh) r₀ ∧ (∃ xs, r₀.1 = .ok xs) ∧
        program.MayCall inputs {} r.2.2 r' ∧ ¬WasCancelled r'.1 ∧ NodeFailed r'.1 := by
  obtain ⟨fits, own, -, -, later⟩ := outcomes
  obtain ⟨r₀, called, answered⟩ := Option.map_eq_some_iff.mp own
  obtain ⟨r, r', first, -, second, told⟩ :=
    happen_in_turn (f := fun x y => (failure? x, failure? y)) (Program.checked_of_load loaded) fits later
  obtain ⟨answered', failed⟩ := Prod.mk.inj told
  replace failed := Negation.eq_error_of_failure? failed
  refine ⟨Negation.loaded, loaded, rfl, rfl, r, r', r₀, first, exists_of_failure? answered',
    mayCall_of_alone count_inputs rfl called, exists_of_failure? answered, second, ?_, ?_⟩
  · rw [failed]
    rintro ⟨skipped, same⟩
    simp at same
  · rw [failed]
    exact ⟨_, _, _, rfl⟩

end Collision.Sequel

end HomCircuit
