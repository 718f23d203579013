import HomCircuit.Context.Call
import HomCircuit.Proofs.Schedule.Clock

/-!
# HomCircuit.Proofs.Context.Calls

Calls in a context over all ways in which its workers take turns.

`Context.execute` and `Program.callWith` let the workers of a call take turns by the clock. Here they
may do so in any way, and there may be any number of them.

* `Context.MayExecute` — the answers that a call of a graph may give, among them that of
  `Context.execute`;
* `Program.MayCall` — what a call of a program may come to, `Program.callWith` among it;
* `Run.bind_ok` — arguments that are all accepted are put in place.
-/

namespace HomCircuit

/-- The answers that a call of a graph in a context may give. -/
inductive Context.MayExecute (c : Context) (g : Graph) (partitions : Registry)
    (supplied : List (ValueId × Value)) (o : CallOptions) (t : CancelToken) : Answer → Prop
  | shut (gone : c.shut = true) :
      c.MayExecute g partitions supplied o t (.error .contextShutDown, {}, c.resources)
  | unprepared {err : RunError} (live : c.shut = false)
      (h : Plan.prepare g o (c.mode = .accelerator && c.resources.hasDevices) = .error err) :
      c.MayExecute g partitions supplied o t (.error err, {}, c.resources)
  | ran {p : Plan} {workers : Nat} {answer : Answer} (live : c.shut = false)
      (h : Plan.prepare g o (c.mode = .accelerator && c.resources.hasDevices) = .ok p)
      (returns : p.MayReturn (c.environment partitions t) workers supplied c.resources answer) :
      c.MayExecute g partitions supplied o t answer

/-- The answer of a call by the clock. -/
def Context.executed (c : Context) (g : Graph) (partitions : Registry)
    (supplied : List (ValueId × Value)) (o : CallOptions) (t : CancelToken) : Answer :=
  let r := c.execute g partitions supplied o t
  (r.1, r.2.1, r.2.2.resources)

/-- A call changes the resources of its context alone. -/
theorem Context.execute_eq (c : Context) (g : Graph) (partitions : Registry)
    (supplied : List (ValueId × Value)) (o : CallOptions) (t : CancelToken) :
    (c.execute g partitions supplied o t).2.2 =
      { c with resources := (c.executed g partitions supplied o t).2.2 } := by
  unfold Context.executed Context.execute
  split
  · rfl
  · split <;> rfl

/-- If the schedule by the clock is one of the schedules of the call's plan, its answer is one that
the call may give. -/
theorem Context.mayExecute_executed {c : Context} {g : Graph} {partitions : Registry}
    {supplied : List (ValueId × Value)} {o : CallOptions} {t : CancelToken}
    (returns : ∀ p, Plan.prepare g o (c.mode = .accelerator && c.resources.hasDevices) = .ok p →
      ∀ workers, p.MayReturn (c.environment partitions t) workers supplied c.resources
        (p.execute (c.environment partitions t) workers supplied c.resources)) :
    c.MayExecute g partitions supplied o t (c.executed g partitions supplied o t) := by
  unfold Context.executed Context.execute
  cases shut : c.shut with
  | true => exact .shut shut
  | false =>
      cases prepared : Plan.prepare g o (c.mode = .accelerator && c.resources.hasDevices) with
      | error err => exact .unprepared shut prepared
      | ok p => exact .ran shut prepared (returns p prepared _)

/-- A call takes its token, or a fresh one of the context. -/
def Context.begin (c : Context) (token : Option CancelToken) : CancelToken × Context :=
  let c := c.handOver token
  match token with
  | some t => (t, c)
  | none => c.token

namespace Program

/-- Values for the inputs of a program, by position. -/
def supply (p : Program) (inputs : List Value) : List (ValueId × Value) :=
  (p.inputs.map (·.1)).zip inputs

/-- What a caller asks for. -/
def wanted (p : Program) (o : CallChoice) : List ValueId := o.outputs.getD p.outputs

/-- The settings of a call in a context. -/
def settings (p : Program) (o : CallChoice) (c : Context) : CallOptions :=
  { requested := p.wanted o, deterministic := o.deterministic.getD c.options.deterministic
    elide := c.options.elide, assignment := o.assignment }

/-- What a call of a program may come to: values or an error, the trace, and the context. -/
def MayCall (p : Program) (inputs : List Value) (o : CallChoice) (c : Context)
    (answer : Except RunError (List Value) × Trace × Context) : Prop :=
  if inputs.length ≠ p.inputs.length then
    answer = (.error (p.inputShape inputs.length), {}, c.handOver o.token)
  else
    match o.assignment.find? (c.resources.remotes.length ≤ ·.2) with
    | some (_, w) => answer = (.error (.remote w "no such remote worker"), {}, c.handOver o.token)
    | none =>
      let (t, c) := c.begin o.token
      ∃ a : Answer, c.MayExecute p.graph p.partitions (p.supply inputs) (p.settings o c) t a ∧
        answer = (a.1.bind (pick · (p.wanted o)), a.2.1, { c with resources := a.2.2 })

/-- A call is refused at once, or goes on with a call of its graph. -/
theorem MayCall.cases {p : Program} {inputs : List Value} {o : CallChoice} {c : Context}
    {r : Except RunError (List Value) × Trace × Context} (h : p.MayCall inputs o c r) :
    (∃ err, r = (.error err, {}, c.handOver o.token)) ∨
      ∃ t c' a, c.begin o.token = (t, c') ∧
        c'.MayExecute p.graph p.partitions (p.supply inputs) (p.settings o c') t a ∧
        r = (a.1.bind (pick · (p.wanted o)), a.2.1, { c' with resources := a.2.2 }) := by
  unfold MayCall at h
  split at h
  · exact .inl ⟨_, h⟩
  · split at h
    · exact .inl ⟨_, h⟩
    · obtain ⟨a, executes, same⟩ := h
      exact .inr ⟨_, _, a, rfl, executes, same⟩

/-- A call by the clock with inputs of the right number and workers that exist runs its graph. -/
theorem callWith_eq {p : Program} {inputs : List Value} {o : CallChoice} {c : Context}
    (count : inputs.length = p.inputs.length)
    (workers : o.assignment.find? (c.resources.remotes.length ≤ ·.2) = none) :
    let (t, c') := c.begin o.token
    let a := c'.executed p.graph p.partitions (p.supply inputs) (p.settings o c') t
    p.callWith inputs o c = (a.1.bind (pick · (p.wanted o)), a.2.1, { c' with resources := a.2.2 }) := by
  have remotes : (c.handOver o.token).resources.remotes = c.resources.remotes := by
    cases o.token <;> rfl
  unfold callWith
  simp only [if_neg (not_not.mpr count), remotes, workers]
  cases token : o.token with
  | none =>
      simp only [Context.begin, ← Context.execute_eq]
      rfl
  | some t =>
      simp only [Context.begin, ← Context.execute_eq]
      rfl

/-- A call of a program by the clock is one that may happen, if the call of its graph is. -/
theorem mayCall_callWith {p : Program} {inputs : List Value} {o : CallChoice} {c : Context}
    (executes : ∀ t c', c.begin o.token = (t, c') →
      c'.MayExecute p.graph p.partitions (p.supply inputs) (p.settings o c') t
        (c'.executed p.graph p.partitions (p.supply inputs) (p.settings o c') t)) :
    p.MayCall inputs o c (p.callWith inputs o c) := by
  have remotes : (c.handOver o.token).resources.remotes = c.resources.remotes := by
    cases o.token <;> rfl
  unfold MayCall
  by_cases count : inputs.length ≠ p.inputs.length
  · simp only [callWith, if_pos count]
  · rw [if_neg count]
    cases found : o.assignment.find? (c.resources.remotes.length ≤ ·.2) with
    | some assigned => simp only [callWith, if_neg count, remotes, found]
    | none => exact ⟨_, executes _ _ rfl, callWith_eq (not_not.mp count) found⟩

end Program

/-- A live context without devices prepares a plan for values that the graph has. -/
theorem Plan.exists_prepare {g : Graph} {o : CallOptions}
    (known : ∀ v ∈ o.requested, ∃ slot, g.slot? v = some slot) (accelerating : Bool) :
    ∃ p, Plan.prepare g o accelerating = .ok p := by
  obtain ⟨requested, found⟩ := Plan.resolve_isOk known []
  exact ⟨_, by rw [Plan.prepare, found]; rfl⟩

section Arguments

variable {e : Environment} {supplied : List (ValueId × Value)}

/-- Arguments that are all accepted are put in place. -/
theorem Run.bind_ok {p : Plan} {arguments : List (ValueId × PartitionId)}
    (accepted : ∀ a ∈ arguments, (∃ slot, p.graph.slot? a.1 = some slot) ∧
      ∃ b, Run.argument e supplied a.1 a.2 = .ok b) (r : Run) :
    ∃ r', Run.bind e p supplied arguments r = (.ok (), r') := by
  induction arguments generalizing r with
  | nil => exact ⟨r, rfl⟩
  | cons a rest ih =>
      obtain ⟨⟨⟨slot, place⟩, b, made⟩, others⟩ := List.forall_mem_cons.mp accepted
      simp only [Run.bind, place]
      split
      · exact ih others r
      · simp only [made]
        exact ih others _

/-- A value that is supplied by position for a name. -/
theorem lookup_zip {R : PartitionId → Value → Prop} {inputs : List (ValueId × PartitionId)}
    {values : List Value} (nodup : (inputs.map (·.1)).Nodup)
    (all : List.Forall₂ (fun input x => R input.2 x) inputs values) :
    ∀ input ∈ inputs, ∃ x, ((inputs.map (·.1)).zip values).lookup input.1 = some x ∧ R input.2 x := by
  induction all with
  | nil => simp
  | @cons first x rest values fits others ih =>
      obtain ⟨fresh, nodup⟩ := List.nodup_cons.mp nodup
      intro input mem
      simp only [List.map_cons, List.zip_cons_cons]
      rcases List.mem_cons.mp mem with rfl | mem
      · exact ⟨x, by simp, fits⟩
      · have apart : (input.1 == first.1) = false :=
          beq_eq_false_iff_ne.mpr fun same => fresh (List.mem_map.mpr ⟨input, mem, same⟩)
        rw [List.lookup_cons, apart]
        exact ih nodup input mem

/-- The same, where the position is known. -/
theorem lookup_zip_getElem? {inputs : List (ValueId × PartitionId)} {values : List Value}
    (nodup : (inputs.map (·.1)).Nodup) {k : Nat} {input : ValueId × PartitionId} {x : Value}
    (found : inputs[k]? = some input) (given : values[k]? = some x) :
    ((inputs.map (·.1)).zip values).lookup input.1 = some x := by
  induction inputs generalizing values k with
  | nil => simp at found
  | cons first rest ih =>
      obtain ⟨fresh, nodup⟩ := List.nodup_cons.mp nodup
      cases values with
      | nil => simp at given
      | cons y values =>
          simp only [List.map_cons, List.zip_cons_cons, List.lookup_cons]
          cases k with
          | zero =>
              simp only [List.getElem?_cons_zero, Option.some.injEq] at found given
              simp [found, given]
          | succ k =>
              simp only [List.getElem?_cons_succ] at found given
              have apart : (input.1 == first.1) = false := beq_eq_false_iff_ne.mpr fun same =>
                fresh (List.mem_map.mpr ⟨input, List.mem_of_getElem? found, same⟩)
              rw [apart]
              exact ih nodup found given

end Arguments

/-- The arguments of a wired graph have names of their own. -/
theorem Graph.Wired.nodup_arguments {g : Graph} (w : g.Wired) :
    (g.arguments.toList.map (·.1)).Nodup := by
  refine List.nodup_iff_injective_getElem.mpr fun i j same => ?_
  have inside (k : Fin (g.arguments.toList.map (·.1)).length) : k.val < g.arguments.size := by
    simpa using k.isLt
  have value (k : Fin (g.arguments.toList.map (·.1)).length) :
      g.valueAt k = (g.arguments.toList.map (·.1))[k.val] := by
    rw [w.valueAt_argument k _ (Array.getElem?_eq_getElem (inside k))]
    simp
  have slot (k : Fin (g.arguments.toList.map (·.1)).length) : g.slot? (g.valueAt k) = some k.val := by
    refine w.slot?_valueAt ?_
    rw [w.slotCount]
    have := inside k
    omega
  have both : some i.val = some j.val := by
    rw [← slot i, ← slot j, value i, value j]
    exact congrArg g.slot? same
  exact Fin.ext (Option.some.inj both)

/-- An argument of a wired graph has a slot. -/
theorem Graph.Wired.exists_slot? {g : Graph} (w : g.Wired) {a : ValueId × PartitionId}
    (mem : a ∈ g.arguments.toList) : ∃ k, g.slot? a.1 = some k ∧ g.arguments[k]? = some a := by
  obtain ⟨k, inside, rfl⟩ := List.getElem_of_mem mem
  have lt : k < g.arguments.size := by simpa using inside
  refine ⟨k, ?_, by simp [lt]⟩
  have value : g.valueAt k = (g.arguments.toList[k]).1 := by
    rw [w.valueAt_argument k _ (Array.getElem?_eq_getElem lt)]
    simp
  rw [← value]
  exact w.slot?_valueAt (by rw [w.slotCount]; omega)

end HomCircuit
