import HomCircuit.Proofs.Boundary.Thread
import HomCircuit.Proofs.Program.Independence
import HomCircuit.Proofs.Program.Shape

/-!
# HomCircuit.Proofs.Boundary.Call

Calls of programs by foreign callers write all of the output, or nothing of it.

* `Program.Checked.fits_of_runs`, `Program.Checked.fits_standIns` — what calls return fits;
* `Boundary.resources_of_create` — a context that a foreign caller has made;
* `Boundary.fits_of_called` — what calls in such a context return fits;
* `Boundary.calls_deliver` — all entry points.
-/

namespace HomCircuit

namespace Program

variable {p : Program} {c : Context} {values xs : List Value}

/-- In a context that encrypts, where key sets are those of their partitions, a call returns values that
fit. -/
theorem Checked.fits_of_runs (checked : p.Checked) (encrypts : c.mode ≠ .simulation)
    (reference : c.primitives = .reference) (alone : c.resources.Standalone)
    (keys : c.resources.keys.Answers p.partitions c.options.seed fun q k => k.IsOf q) {a : Answer}
    {r : Except RunError (List Value) × Trace × Context} (h : p.Runs values {} c a r)
    (ok : r.1 = .ok xs) : List.Forall₂ (p.Fits false) p.outputs xs :=
  (checked.runs_shaped encrypts reference alone keys h ok).imp
    fun _ _ ⟨slot, q, ct, place, known, same, length⟩ =>
      ⟨q, Option.bind_eq_some_iff.mpr ⟨slot, place, known⟩, ct, same, length⟩

/-- In simulation, too. -/
theorem Checked.fits_standIns (checked : p.Checked) (simulation : c.mode = .simulation)
    (count : values.length = p.inputs.length) (plain : ∀ x ∈ values, x.ciphertext? = none)
    {r : Except RunError (List Value) × Trace × Context} (h : p.MayCall values {} c r)
    (ok : r.1 = .ok xs) : List.Forall₂ (p.Fits true) p.outputs xs := by
  rcases h.refused_or_ran (by simp [simulation]) with ⟨err, -, failed⟩ |
    ⟨-, -, plan, t, cancellation, workers, a, prepared, returns, rfl⟩
  · rw [failed] at ok
    contradiction
  · obtain ⟨-, picked⟩ := checked.picks_simulated (p.wanted {}) simulation count plain prepared returns
    have standIns := (picked xs ok).2
    refine ((List.forall₂_and_left (p := (· ∈ p.outputs)) _ _).mpr ⟨fun v mem => mem, standIns⟩).imp ?_
    rintro v x ⟨output, s, same, -⟩
    obtain ⟨slot, place⟩ := checked.output_known v output
    obtain ⟨q, known⟩ := checked.exists_partitionOf? place
    exact ⟨q, known, s, same⟩

end Program

namespace Boundary

variable {asked : Partition → Prop} {c c₀ : Context} {p : Program}

/-- A context that a foreign caller has made, whatever has happened to it since, has the reference
arithmetic and no remote workers. -/
theorem resources_of_create {parallelism cacheCapacity : Nat} {flags : UInt32} {place : Bool}
    (created : createContext parallelism flags cacheCapacity place = .ok c₀)
    (history : c₀.Reaches asked c) :
    Context.start c₀.options .reference [] = .done c₀ ∧ c.primitives = .reference ∧
      c.resources.Standalone := by
  obtain ⟨⟨⟩, -, made⟩ := Except.exists_of_bind created
  replace made := Except.eq_ok_of_mapError made
  have alone := Context.standalone_create rfl made
  have options : c₀.options = optionsOf parallelism flags cacheCapacity ∧ c₀.primitives = .reference := by
    obtain ⟨-, -, rfl⟩ := Except.exists_of_map made
    exact ⟨rfl, rfl⟩
  refine ⟨?_, history.unchanged.2.1.trans options.2, history.standalone alone⟩
  rw [options.1, Context.start, made]
  simp [alone.remotes]

/-- On such a context a call of a program returns values that fit. -/
theorem fits_of_called {parallelism cacheCapacity : Nat} {flags : UInt32} {place : Bool}
    (created : createContext parallelism flags cacheCapacity place = .ok c₀)
    (history : c₀.Reaches asked c) (checked : p.Checked)
    (apart : c.mode ≠ .simulation → ∀ q ∈ p.partitions.partitions, ∀ q', asked q' →
      q'.name = q.name → q'.fingerprint = q.fingerprint → q' = q)
    {parts : List (List UInt64)} (cuts : Cuts p (c.mode = .simulation) parts)
    {r : Except RunError (List Value) × Trace × Context}
    (called : p.MayCall (parts.map (inputValue (c.mode = .simulation))) {} c r ∨
      r = p.call (parts.map (inputValue (c.mode = .simulation))) c)
    {xs : List Value} (ok : r.1 = .ok xs) :
    List.Forall₂ (p.Fits (c.mode = .simulation)) p.outputs xs := by
  obtain ⟨fresh, reference, alone⟩ := resources_of_create created history
  have count : (parts.map (inputValue (c.mode = .simulation))).length = p.inputs.length := by
    rw [List.length_map, cuts.length_eq]
  by_cases mode : c.mode = .simulation
  · simp only [mode, decide_true] at called count ⊢
    have plain : ∀ x ∈ parts.map (inputValue true), x.ciphertext? = none := by
      simp [inputValue, Value.ciphertext?]
    rcases called with called | rfl
    · exact checked.fits_standIns mode count plain called ok
    · exact checked.fits_standIns mode count plain (checked.mayCall_standIns mode reference) ok
  · simp only [mode, decide_false] at called count ⊢
    obtain ⟨a, runs⟩ : ∃ a, p.Runs (parts.map (inputValue false)) {} c a r := by
      rcases called with called | rfl
      · exact called.runs count (by simp)
      · exact Program.runs_callWith count (by simp)
    -- no key set of another partition is taken for one of the program
    have keys : c.resources.keys.Answers p.partitions c.options.seed
        fun q k => k = KeySet.ofSeed q c.options.seed :=
      (Context.clean_of_reaches fresh history).answers checked.sane.distinct (apart mode)
    refine checked.fits_of_runs mode reference alone (fun asked all q known shared got => ?_) runs ok
    rw [keys asked all q known shared got]
    exact KeySet.isOf_ofSeed q _

/-- On a context that a foreign caller has made, whatever has happened to it since, a call of a loaded
program, in every interleaving, writes all values that it returns over the whole output if it succeeds, and
else leaves the output alone. So do all other calls that fail. And for each thread the text of its last
fault is kept. Outside of simulation the calls of programs take that no other partition asked for before
shares name and fingerprint with one of the program. -/
theorem calls_deliver {parallelism cacheCapacity : Nat} {flags : UInt32} {place : Bool}
    (created : createContext parallelism flags cacheCapacity place = .ok c₀)
    (history : c₀.Reaches asked c) {artifact : Artifact} (loaded : Program.load artifact = .ok p)
    (apart : c.mode ≠ .simulation → ∀ q ∈ p.partitions.partitions, ∀ q', asked q' →
      q'.name = q.name → q'.fingerprint = q.fingerprint → q' = q)
    {call : List Value → Context → Except RunError (List Value) × Trace × Context}
    (answers : ∀ values, p.MayCall values {} c (call values c) ∨ call values c = p.call values c) :
    (∀ inputs out, Delivers p call c inputs out) ∧
    (∀ (w : World) context out e,
      (∀ handle inputs answering, e = .callProgram handle inputs answering →
        context = none ∨ w.program? handle = none) →
      (enter context out (w.body e)).status ≠ .ok → (enter context out (w.body e)).out = out) ∧
    ∀ (w : World) calls thread, (w.run calls).2.lastFault thread =
      ((World.faultsOf thread (w.run calls).1).getLast?.map fun f =>
        String.ofList (f.message.toList.map fun ch => if ch = '\x00' then ' ' else ch)).or
          (w.lastFault thread) := by
  have checked := Program.checked_of_load loaded
  refine ⟨fun inputs out => ?_, fun w context out e idle failed => ?_, fun w calls thread => ?_⟩
  · exact delivers_callBy checked (Program.outputs_ne_nil_of_load loaded)
      (fun parts xs cuts ok => fits_of_called created history checked apart cuts (answers _) ok) inputs out
  · cases context with
    | none => rfl
    | some c =>
        have atomic : (w.body e).Atomic := World.atomic_body fun handle inputs answering same =>
          (idle handle inputs answering same).resolve_left (by simp)
        exact atomic.out_eq failed
  · exact w.lastFault_run calls thread

end Boundary

/-! ## an output that is half written -/

namespace Collision.Torn

open Boundary
open Sequel (earlier)

/-- One change of partition, which hands out its input as well. -/
def artifact : Artifact :=
  { name := "change"
    partitions :=
      [{ name := "R", lweDim := 1, glweDim := 1, polySize := 4 },
        { name := "P", lweDim := 1, glweDim := 1, polySize := 4 }]
    inputs := [{ value := 0, partition := "R" }]
    outputs := [0, 1]
    nodes := [{ id := 0, op := .changePartition "R", inputs := [0], output := 1, partition := "P" }] }

def program : Program := (Program.load artifact).toOption.getD default

theorem loaded : Program.load artifact = .ok program := Except.eq_ok_of_isOk (by decide +kernel)

/-- A context that was made with one worker, a fixed order, and room for four key sets. -/
def fresh : Context :=
  { options := optionsOf 1 4 4, primitives := .reference, resources := { keys := .empty 4 } }

theorem created : createContext 1 4 4 true = .ok fresh := rfl

/-- A program with one node, which takes part in calls. -/
structure Single (p : Program) (requested : List (ValueId × Nat)) : Prop where
  resolved : Plan.resolve p.graph [] p.outputs = .ok requested
  size : p.graph.size = 1
  produced : (requested.map (·.2)).filterMap p.graph.producer? = [0]
  sources : p.graph.producersOf 0 = []

theorem singles : Single earlier [(⟨1⟩, 1)] ∧ Single program [(⟨0⟩, 0), (⟨1⟩, 1)] := by
  have facts :
      ((Plan.resolve earlier.graph [] earlier.outputs).toOption = some [(⟨1⟩, 1)] ∧
        earlier.graph.size = 1 ∧ [1].filterMap earlier.graph.producer? = [0] ∧
        earlier.graph.producersOf 0 = []) ∧
      (Plan.resolve program.graph [] program.outputs).toOption = some [(⟨0⟩, 0), (⟨1⟩, 1)] ∧
        program.graph.size = 1 ∧ [0, 1].filterMap program.graph.producer? = [0] ∧
        program.graph.producersOf 0 = [] := by decide +kernel
  obtain ⟨⟨resolved, size, produced, sources⟩, resolved', size', produced', sources'⟩ := facts
  exact ⟨⟨Except.eq_ok_of_toOption resolved, size, produced, sources⟩,
    ⟨Except.eq_ok_of_toOption resolved', size', produced', sources'⟩⟩

theorem Single.marked {p : Program} {requested : List (ValueId × Nat)} (h : Single p requested) :
    p.graph.liveNodes (requested.map (·.2)) = [true] := by
  simp [Graph.liveNodes, Graph.markFrom, h.size, h.produced, h.sources]

/-- The plan of a call of such a program. -/
def planned (p : Program) (requested : List (ValueId × Nat)) : Plan :=
  { graph := p.graph, options := p.settings {} fresh, requested, live := [true], accelerating := false
    order := p.graph.dispatchOrder fun i => [true].getD i false }

/-- What a program that was planned comes to by the clock. -/
def ran (p : Program) (plan : Plan) (values : List Value) (c : Context) :
    Except RunError (List Value) × Trace × Context :=
  let (t, c) := c.begin none
  let a := plan.execute (c.environment p.partitions t) (c.workers?.getD 1) (p.supply values) c.resources
  (a.1.bind (Program.pick · p.outputs), a.2.1, { c with resources := a.2.2 })

theorem Single.call_eq_ran {p : Program} {requested : List (ValueId × Nat)} (h : Single p requested)
    {values : List Value} {c : Context} (live : c.shut = false)
    (count : values.length = p.inputs.length) (settings : p.settings {} c = p.settings {} fresh)
    (host : c.mode ≠ .accelerator) : p.call values c = ran p (planned p requested) values c := by
  have asked : (p.settings {} fresh).requested = p.outputs := rfl
  have elides : (p.settings {} fresh).elide = true := rfl
  have fixed : (p.settings {} fresh).deterministic = true := rfl
  have prepared : Plan.prepare p.graph (p.settings {} (c.begin none).2)
      ((c.begin none).2.mode = .accelerator && (c.begin none).2.resources.hasDevices) =
      .ok (planned p requested) := by
    change Plan.prepare p.graph (p.settings {} c) (c.mode = .accelerator && _) = _
    simp [settings, host, Plan.prepare, asked, h.resolved, Except.map, elides, fixed, h.marked, planned]
  have running : (c.begin none).2.shut = false := live
  have executed : (c.begin none).2.executed p.graph p.partitions (p.supply values)
      (p.settings {} (c.begin none).2) (c.begin none).1 =
      (planned p requested).execute ((c.begin none).2.environment p.partitions (c.begin none).1)
        ((c.begin none).2.workers?.getD 1) (p.supply values) (c.begin none).2.resources := by
    simp only [Context.executed, Context.execute, running, prepared]
    rfl
  rw [Program.call, Program.callWith_eq (o := {}) count rfl]
  simp only [ran, ← executed]
  rfl

/-- The steps of a call of such a program. -/
theorem Single.exec_callProgram {p : Program} {requested : List (ValueId × Nat)}
    (h : Single p requested) (checked : p.Checked) {c : Context} (live : c.shut = false)
    (settings : p.settings {} c = p.settings {} fresh) (host : c.mode ≠ .accelerator)
    (inputs out : Words) : (callProgram (some p) inputs).exec ⟨c, out⟩ =
      (callBy p (ran p (planned p requested)) inputs).exec ⟨c, out⟩ := by
  have same : ∀ values, values.length = p.inputs.length →
      p.call values c = ran p (planned p requested) values c :=
    fun values count => h.call_eq_ran live count settings host
  simp only [callProgram]
  exact exec_callBy_congr checked.placed_values same

/-- So many words in a place. -/
def filled (n : Nat) (word : UInt64) : Words := .stored (List.replicate n word)

/-- The call of a program with longer ciphertexts. -/
def first : Except Fault Unit × Scene :=
  (callBy earlier (ran earlier (planned earlier [(⟨1⟩, 1)])) (filled 9 0)).exec ⟨fresh, filled 9 0⟩

/-- The context that it leaves behind. -/
def stale : Context := first.2.context

/-- The call that follows it. -/
def second : Except Fault Unit × Scene :=
  (callBy program (ran program (planned program [(⟨0⟩, 0), (⟨1⟩, 1)])) (filled 5 0)).exec
    ⟨stale, filled 10 1⟩

/-- The first call succeeds, and leaves a context like the one that was made; the second one fails, and has
written something. -/
theorem outcomes : first.1 = .ok () ∧
    (stale.shut = false ∧ stale.options.elide = true ∧ stale.options.deterministic = true ∧
      stale.mode ≠ .accelerator) ∧
    second.1 = .error (.ofError (.bufferShape "output v1" 5 9)) ∧ second.2.out ≠ filled 10 1 := by
  decide +kernel

theorem enter_first : enter (some fresh) (filled 9 0) (callProgram (some earlier) (filled 9 0)) =
    { result := first.1, out := first.2.out, context := some stale } := by
  rw [Body.enter_eq, singles.1.exec_callProgram (Program.checked_of_load Sequel.loaded) rfl rfl
    (by decide)]
  rfl

theorem enter_second : enter (some stale) (filled 10 1) (callProgram (some program) (filled 5 0)) =
    { result := second.1, out := second.2.out, context := some second.2.context } := by
  obtain ⟨-, ⟨live, elide, fixed, host⟩, -⟩ := outcomes
  have settings : program.settings {} stale = program.settings {} fresh := by
    simp only [Program.settings, elide, fixed]
    rfl
  rw [Body.enter_eq, singles.2.exec_callProgram (Program.checked_of_load loaded) live settings host]
  rfl

/-- In a context that was just made, a call writes all of its output. -/
theorem calls_deliver_fresh :
    createContext 1 4 4 true = .ok fresh ∧ Program.load Sequel.artifact = .ok earlier ∧
      (enter (some fresh) (filled 9 0) (callProgram (some earlier) (filled 9 0))).status = .ok ∧
      Delivers earlier earlier.call fresh (filled 9 0) (filled 9 0) := by
  have nothing : fresh.Reaches (fun _ => False) fresh := .refl
  obtain ⟨delivers, -, -⟩ := calls_deliver created nothing Sequel.loaded
    (fun _ _ _ _ asked => asked.elim) (fun _ => .inr rfl)
  refine ⟨created, Sequel.loaded, ?_, delivers _ _⟩
  rw [enter_first]
  exact Reply.status_eq_ok_iff.mpr ⟨(), outcomes.1⟩

/-- After a call of a program with a colliding partition, a call fails with one of its two outputs
written. -/
theorem output_half_written :
    createContext 1 4 4 true = .ok fresh ∧ Program.load Sequel.artifact = .ok earlier ∧
      Program.load artifact = .ok program ∧
      (enter (some fresh) (filled 9 0) (callProgram (some earlier) (filled 9 0))).status = .ok ∧
      (enter (some fresh) (filled 9 0) (callProgram (some earlier) (filled 9 0))).context =
        some stale ∧
      (enter (some stale) (filled 10 1) (callProgram (some program) (filled 5 0))).status ≠ .ok ∧
      (enter (some stale) (filled 10 1) (callProgram (some program) (filled 5 0))).out ≠
        filled 10 1 := by
  obtain ⟨answered, -, failed, written⟩ := outcomes
  rw [enter_first, enter_second]
  refine ⟨created, Sequel.loaded, loaded, Reply.status_eq_ok_iff.mpr ⟨(), answered⟩, rfl, ?_, written⟩
  intro told
  obtain ⟨_, ok⟩ := Reply.status_eq_ok_iff.mp told
  rw [show second.1 = _ from failed] at ok
  contradiction

end Collision.Torn

end HomCircuit
