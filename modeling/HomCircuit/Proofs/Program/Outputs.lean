import HomCircuit.Proofs.Key.Slots
import HomCircuit.Proofs.Program.Safety
import HomCircuit.Proofs.Schedule.Confined

/-!
# HomCircuit.Proofs.Program.Outputs

The values that a call of a program returns once its graph has answered.

```
graph     each value that was asked for, once, from its slot
program   takes the values out one by one, in the order in which they were asked for
```

So a value that is asked for a second time is gone.

* `Program.Runs` — a call of a program and the answer of its graph;
* `Run.collect_holds` — a graph answers what lies in the slots when its workers are gone;
* `Program.pick_of_nodup`, `Program.pick_of_repeated` — values that are taken out;
* `Program.call_returns` — a call returns all values that were asked for exactly when these are
  different.
-/

namespace HomCircuit

/-! ## answers of a graph -/

section Answers

variable {e : Environment} {p : Plan} {C : Conduct e p}

/-- A value lies on the host in its slot. -/
def Run.Holds (p : Plan) (r : Run) (v : ValueId) (x : Value) : Prop :=
  ∃ slot b, p.graph.slot? v = some slot ∧ r.arena.get? slot = some b ∧ b.payload = .host x

/-- What lies in a slot that was asked for is on the host. -/
theorem Stock.host {good : Nat → Value → Prop} {a : Arena Buffer} {shelf : List Shelved}
    {owing : List Nat} {full : Nat → Prop} {slot : Nat} {b : Buffer}
    (st : Stock p good a shelf owing full) (asked : slot ∈ p.requestedSlots)
    (found : a.get? slot = some b) : ∃ x, b.payload = .host x := by
  obtain ⟨s, mem, rfl⟩ := List.mem_map.mp (st.only slot b found)
  obtain rfl := Option.some.inj (found.symm.trans (st.found s mem))
  obtain ⟨-, x, host, -⟩ := (st.fits s mem).host asked
  exact ⟨x, host⟩

/-- Values that are collected are those that lie in their slots. -/
theorem Run.collect_holds {rest : List (ValueId × Nat)} {r r' : Run}
    {values : List (ValueId × Value)}
    (host : ∀ q ∈ rest, ∀ b, r.arena.get? q.2 = some b → ∃ x, b.payload = .host x)
    (distinct : (rest.map (·.2)).Nodup) (h : Run.collect rest r = (.ok values, r')) :
    List.Forall₂ (fun q a => a.1 = q.1 ∧
      ∃ b, r.arena.get? q.2 = some b ∧ b.payload = .host a.2) rest values := by
  induction rest generalizing r values with
  | nil =>
      simp only [Run.collect, Prod.mk.injEq, Except.ok.injEq] at h
      obtain ⟨rfl, -⟩ := h
      exact .nil
  | cons q rest ih =>
      obtain ⟨v, slot⟩ := q
      obtain ⟨fresh, distinct'⟩ := List.nodup_cons.mp distinct
      obtain ⟨here, others⟩ := List.forall_mem_cons.mp host
      have get : ∀ q ∈ rest, (r.arena.take slot).2.get? q.2 = r.arena.get? q.2 := by
        intro q mem
        have apart : q.2 ≠ slot := fun same => fresh (List.mem_map.mpr ⟨q, mem, same⟩)
        rw [Arena.get?_take, if_neg apart]
      cases found : r.arena.get? slot with
      | none =>
          obtain ⟨err, failed⟩ := Run.collect_none v rest found
          rw [h] at failed
          contradiction
      | some b =>
          obtain ⟨x, payload⟩ := here b found
          rw [Run.collect_cons found payload] at h
          obtain ⟨values', collected, rfl⟩ := Except.exists_of_map (Prod.mk.inj h).1
          have rest' := ih (r := { r with arena := (r.arena.take slot).2 })
            (fun q mem b found => others q mem b ((get q mem).symm.trans found)) distinct'
            (Prod.ext collected (Prod.mk.inj h).2)
          have members := (List.forall₂_and_left (p := (· ∈ rest)) rest values').mpr
            ⟨fun q mem => mem, rest'⟩
          refine .cons ⟨rfl, b, found, payload⟩ (members.imp ?_)
          rintro q a ⟨mem, name, b', found', payload'⟩
          exact ⟨name, b', (get q mem).symm.trans found', payload'⟩

/-- A call of a graph that answers values answers what lies in the slots in the state that its
workers left behind. -/
theorem Run.finish_holds (sound : p.Sound) {c : Crew} (v : c.Valid C)
    {values : List (ValueId × Value)} (ok : (c.run.finish p (.ok ())).1 = .ok values) :
    List.Forall₂ (fun q a => a.1 = q.1 ∧ c.run.Holds p q.1 a.2) p.requested values := by
  obtain ⟨phases, shelf, done, lost, -, ledger, -, -⟩ := v
  have collected : (Run.collect p.requested c.run).1 = .ok values := by
    unfold Run.finish at ok
    cases failed : c.run.dispatch.failure with
    | some failure => simp [failed] at ok
    | none => simpa [failed] using ok
  have host : ∀ q ∈ p.requested, ∀ b, c.run.arena.get? q.2 = some b → ∃ x, b.payload = .host x :=
    fun q mem b found => ledger.stock.host (List.mem_map.mpr ⟨q, mem, rfl⟩) found
  have members := (List.forall₂_and_left (p := (· ∈ p.requested)) p.requested values).mpr
    ⟨fun q mem => mem, Run.collect_holds host sound.distinct (Prod.ext collected rfl)⟩
  refine members.imp ?_
  rintro q a ⟨mem, name, b, found, payload⟩
  exact ⟨name, q.2, b, sound.slots q mem, found, payload⟩

end Answers

/-- The answers of a call of a graph in a context, with its workers by the clock or in any order. -/
def Context.Executes (c : Context) (g : Graph) (partitions : Registry)
    (supplied : List (ValueId × Value)) (o : CallOptions) (t : CancelToken) (a : Answer) : Prop :=
  c.MayExecute g partitions supplied o t a ∨ a = c.executed g partitions supplied o t

/-- A call that answers values has let its workers take turns in some way. -/
theorem Context.Executes.exists_final {c : Context} {g : Graph} {partitions : Registry}
    {supplied : List (ValueId × Value)} {o : CallOptions} {t : CancelToken} {a : Answer}
    (h : c.Executes g partitions supplied o t a) {values : List (ValueId × Value)}
    (ok : a.1 = .ok values) :
    ∃ plan run workers ms,
      Plan.prepare g o (c.mode = .accelerator && c.resources.hasDevices) = .ok plan ∧
      Run.bind (c.environment partitions t) plan supplied plan.graph.arguments.toList
        (Run.initial plan c.resources) = (.ok (), run) ∧
      a = ((Plan.crew run workers).moves (c.environment partitions t) plan ms).run.finish plan
        (.ok ()) := by
  rcases h with (_ | _ | @⟨plan, workers, _, live, prepared, returns⟩) | rfl
  · contradiction
  · contradiction
  · cases returns with
    | refused bound => contradiction
    | finished ms bound gone => exact ⟨plan, _, workers, ms, prepared, bound, rfl⟩
  · unfold Context.executed Context.execute at ok ⊢
    cases shut : c.shut with
    | true => simp [shut] at ok
    | false =>
        cases prepared : Plan.prepare g o (c.mode = .accelerator && c.resources.hasDevices) with
        | error err => simp [shut, prepared] at ok
        | ok plan =>
            simp only [shut, prepared, Bool.false_eq_true, if_false] at ok ⊢
            generalize begun : Run.bind (c.environment partitions t) plan supplied
              plan.graph.arguments.toList (Run.initial plan c.resources) = bound
            obtain ⟨result, run⟩ := bound
            cases result with
            | error err =>
                rw [Plan.execute_refused begun] at ok
                contradiction
            | ok u =>
                obtain ⟨ks, -, answer⟩ := Plan.execute_eq (c.environment partitions t) plan
                  (c.workers?.getD 1) supplied c.resources begun
                exact ⟨plan, run, c.workers?.getD 1, _, rfl, begun, answer⟩

/-! ## values that are taken out -/

namespace Program

section Pick

variable {values : List (ValueId × Value)} {ids : List ValueId} {v w : ValueId}

/-- To take out one value leaves the others where they are. -/
theorem lookup_others (apart : w ≠ v) : (values.filter (·.1 ≠ v)).lookup w = values.lookup w := by
  rw [KeyCache.lookup_filter_key (fun u => decide (u ≠ v)), if_pos (decide_eq_true apart)]

/-- A value that was taken out is gone. -/
theorem lookup_taken : (values.filter (·.1 ≠ v)).lookup v = none := by
  rw [KeyCache.lookup_filter_key (fun u => decide (u ≠ v)), if_neg (by simp)]

/-- Different values that are there are all taken out. -/
theorem pick_of_nodup (distinct : ids.Nodup) (known : ∀ v ∈ ids, ∃ x, values.lookup v = some x) :
    ∃ xs, pick values ids = .ok xs ∧
      List.Forall₂ (fun v x => values.lookup v = some x) ids xs := by
  induction ids generalizing values with
  | nil => exact ⟨[], rfl, .nil⟩
  | cons v rest ih =>
      obtain ⟨fresh, distinct'⟩ := List.nodup_cons.mp distinct
      obtain ⟨⟨x, found⟩, others⟩ := List.forall_mem_cons.mp known
      have stays : ∀ w ∈ rest, (values.filter (·.1 ≠ v)).lookup w = values.lookup w :=
        fun w mem => lookup_others fun same => fresh (same ▸ mem)
      obtain ⟨xs, picked, fits⟩ := ih distinct' fun w mem => by
        rw [stays w mem]
        exact others w mem
      have members := (List.forall₂_and_left (p := (· ∈ rest)) rest xs).mpr ⟨fun w mem => mem, fits⟩
      refine ⟨x :: xs, ?_, .cons found (members.imp fun w x both => ?_)⟩
      · simp only [pick, found, picked]
        rfl
      · rw [← stays w both.1]
        exact both.2

/-- A value that is asked for once more is not there any longer. -/
theorem pick_of_repeated {front back : List ValueId} (distinct : front.Nodup)
    (known : ∀ w ∈ front, ∃ x, values.lookup w = some x)
    (again : v ∈ front ∨ values.lookup v = none) :
    pick values (front ++ v :: back) = .error (.unknownValue v) := by
  induction front generalizing values with
  | nil =>
      have gone : values.lookup v = none := again.resolve_left List.not_mem_nil
      simp only [List.nil_append, pick, gone]
  | cons w rest ih =>
      obtain ⟨fresh, distinct'⟩ := List.nodup_cons.mp distinct
      obtain ⟨⟨x, found⟩, others⟩ := List.forall_mem_cons.mp known
      have later : pick (values.filter (·.1 ≠ w)) (rest ++ v :: back) =
          .error (.unknownValue v) := by
        refine ih distinct' (fun u mem => ?_) ?_
        · have apart : u ≠ w := fun same => fresh (same ▸ mem)
          rw [lookup_others apart]
          exact others u mem
        · by_cases same : v = w
          · subst same
            exact .inr lookup_taken
          · rw [lookup_others same]
            exact again.imp_left fun mem => (List.mem_cons.mp mem).resolve_left same
      simp only [List.cons_append, pick, found, later]
      rfl

/-- Each value of a call is found under its name, and what holds of it there. -/
theorem lookup_named {holds : ValueId → Value → Prop} {requested : List (ValueId × Nat)}
    (there : List.Forall₂ (fun q a => a.1 = q.1 ∧ holds q.1 a.2) requested values) :
    (∀ v ∈ requested.map (·.1), ∃ x, values.lookup v = some x) ∧
      ∀ v x, values.lookup v = some x → holds v x := by
  induction there with
  | nil => exact ⟨nofun, nofun⟩
  | @cons q a requested values fits _ ih =>
      obtain ⟨w, y⟩ := a
      obtain ⟨rfl, here⟩ := fits
      obtain ⟨found, held⟩ := ih
      refine ⟨fun v mem => ?_, fun v x told => ?_⟩
      · by_cases same : v = q.1
        · exact ⟨y, by simp [same]⟩
        · obtain ⟨x, told⟩ := found v ((List.mem_cons.mp mem).resolve_left same)
          exact ⟨x, by simpa [List.lookup_cons, beq_eq_false_iff_ne.mpr same] using told⟩
      · by_cases same : v = q.1
        · subst same
          obtain rfl : y = x := by simpa [List.lookup_cons] using told
          exact here
        · have later : values.lookup v = some x := by
            simpa [List.lookup_cons, beq_eq_false_iff_ne.mpr same] using told
          exact held v x later

/-- A list with a repetition has a first one. -/
theorem exists_repeated {ids : List ValueId} (h : ¬ids.Nodup) :
    ∃ front v back, ids = front ++ v :: back ∧ front.Nodup ∧ v ∈ front := by
  induction ids using List.reverseRecOn with
  | nil => exact absurd List.nodup_nil h
  | append_singleton front v ih =>
      by_cases distinct : front.Nodup
      · refine ⟨front, v, [], rfl, distinct, ?_⟩
        by_contra fresh
        exact h (List.nodup_append.mpr ⟨distinct, List.nodup_singleton v,
          fun w mem u same => by
            obtain rfl := List.mem_singleton.mp same
            exact fun eq => fresh (eq ▸ mem)⟩)
      · obtain ⟨front', w, back, rfl, distinct', again⟩ := ih distinct
        exact ⟨front', w, back ++ [v], by simp, distinct', again⟩

end Pick

/-! ## calls of programs -/

variable {p : Program} {inputs : List Value} {o : CallChoice} {c : Context}

/-- A call of a program that comes to `r` by way of an answer of its graph. -/
structure Runs (p : Program) (inputs : List Value) (o : CallChoice) (c : Context) (a : Answer)
    (r : Except RunError (List Value) × Trace × Context) : Prop where
  executes : (c.begin o.token).2.Executes p.graph p.partitions (p.supply inputs)
    (p.settings o (c.begin o.token).2) (c.begin o.token).1 a
  answer : r = (a.1.bind (pick · (p.wanted o)), a.2.1,
    { (c.begin o.token).2 with resources := a.2.2 })

section Counted

variable (count : inputs.length = p.inputs.length)
  (workers : ∀ assigned ∈ o.assignment, assigned.2 < c.resources.remotes.length)

include count workers

/-- A call with inputs of the right number and workers that exist runs its graph. -/
theorem MayCall.runs {r : Except RunError (List Value) × Trace × Context}
    (h : p.MayCall inputs o c r) : ∃ a, p.Runs inputs o c a r := by
  have none_ : o.assignment.find? (c.resources.remotes.length ≤ ·.2) = none :=
    List.find?_eq_none.mpr fun assigned mem => by simpa using workers assigned mem
  unfold MayCall at h
  rw [if_neg (not_not.mpr count), none_] at h
  obtain ⟨a, executed, answer⟩ := h
  exact ⟨a, .inl executed, answer⟩

/-- So does a call by the clock. -/
theorem runs_callWith : ∃ a, p.Runs inputs o c a (p.callWith inputs o c) := by
  have none_ : o.assignment.find? (c.resources.remotes.length ≤ ·.2) = none :=
    List.find?_eq_none.mpr fun assigned mem => by simpa using workers assigned mem
  exact ⟨_, .inr rfl, callWith_eq count none_⟩

end Counted

/-- A call whose graph answers returns what the graph has for the values that were asked for, if these
are different, and else tells that the first one that was repeated is unknown. -/
theorem Runs.returns {a : Answer} {r : Except RunError (List Value) × Trace × Context}
    (h : p.Runs inputs o c a r) {values : List (ValueId × Value)} (ok : a.1 = .ok values)
    {holds : ValueId → Value → Prop} {requested : List (ValueId × Nat)}
    (there : List.Forall₂ (fun q x => x.1 = q.1 ∧ holds q.1 x.2) requested values)
    (asked : ∀ v ∈ p.wanted o, v ∈ requested.map (·.1)) :
    ((p.wanted o).Nodup → ∃ xs, r.1 = .ok xs ∧ List.Forall₂ holds (p.wanted o) xs) ∧
      (¬(p.wanted o).Nodup → ∃ front v back, p.wanted o = front ++ v :: back ∧ front.Nodup ∧
        v ∈ front ∧ r.1 = .error (.unknownValue v)) := by
  obtain ⟨found, held⟩ := lookup_named there
  have result : r.1 = pick values (p.wanted o) := by
    rw [h.answer, ok]
    rfl
  refine ⟨fun distinct => ?_, fun repeated => ?_⟩
  · obtain ⟨xs, picked, fits⟩ := pick_of_nodup distinct fun v mem => found v (asked v mem)
    exact ⟨xs, result.trans picked, fits.imp fun v x told => held v x told⟩
  · obtain ⟨front, v, back, split, distinct, again⟩ := exists_repeated repeated
    refine ⟨front, v, back, split, distinct, again, ?_⟩
    rw [result, split]
    refine pick_of_repeated distinct (fun w mem => found w (asked w ?_)) (.inl again)
    rw [split]
    exact List.mem_append_left _ mem

/-- A call of a loaded program with inputs of the right number and workers that exist runs its graph,
on whatever backend, with any number of workers, and in any order. If the graph answers values, the
call returns for each value that was asked for the one that lies in its slot when the workers have
ended, in the order in which they were asked for, as long as they are different. If one is asked for
again, the call fails instead, and tells that this value is unknown. -/
theorem call_returns {artifact : Artifact} (loaded : load artifact = .ok p)
    (count : inputs.length = p.inputs.length)
    (workers : ∀ assigned ∈ o.assignment, assigned.2 < c.resources.remotes.length) :
    -- a call by the clock and a call in any order run the graph
    (∃ a, p.Runs inputs o c a (p.callWith inputs o c)) ∧
    (∀ r, p.MayCall inputs o c r → ∃ a, p.Runs inputs o c a r) ∧
    -- where the graph answers
    ∀ a r values, p.Runs inputs o c a r → a.1 = .ok values →
      let e := (c.begin o.token).2.environment p.partitions (c.begin o.token).1
      ∃ plan run n ms, ∃ accelerating,
        Plan.prepare p.graph (p.settings o (c.begin o.token).2) accelerating = .ok plan ∧
        Run.bind e plan (p.supply inputs) plan.graph.arguments.toList
          (Run.initial plan (c.begin o.token).2.resources) = (.ok (), run) ∧
        let ended := ((Plan.crew run n).moves e plan ms).run
        a = ended.finish plan (.ok ()) ∧
        -- different values are all returned
        ((p.wanted o).Nodup → ∃ xs, r.1 = .ok xs ∧
          List.Forall₂ (fun v x => ended.Holds plan v x) (p.wanted o) xs) ∧
        -- and a repeated one is not
        (¬(p.wanted o).Nodup → ∃ front v back, p.wanted o = front ++ v :: back ∧ front.Nodup ∧
          v ∈ front ∧ r.1 = .error (.unknownValue v)) := by
  refine ⟨runs_callWith count workers, fun r h => h.runs count workers, ?_⟩
  intro a r values h ok e
  obtain ⟨plan, run, n, ms, prepared, bound, rfl⟩ := h.executes.exists_final ok
  obtain ⟨sound, graph, options⟩ := Plan.sound_of_prepare (checked_of_load loaded).wired prepared
  have valid := Ledger.crew (C := Conduct.confined e plan) sound trivial Stock.admits_confined bound
    n ms
  refine ⟨plan, run, n, ms, _, prepared, bound, rfl, ?_⟩
  refine h.returns ok (Run.finish_holds sound valid ok) fun v mem => sound.asked v ?_
  rw [options]
  exact mem

end Program

/-! ## a program that lists an output twice -/

namespace Collision.Negation

/-- The negation, with outputs of one's choice. -/
def listing (outputs : List UInt32) : Program :=
  (Program.load { artifact with outputs }).toOption.getD default

/-- What the graph of a program answers by the clock, with a fresh key manager. -/
def graphAnswer (p : Program) : Answer :=
  ((context fresh).begin none).2.executed p.graph p.partitions (p.supply inputs)
    (p.settings {} ((context fresh).begin none).2) ((context fresh).begin none).1

/-- The negation and its argument, listed in this order, are both returned. -/
theorem call_returns_both :
    Program.load { artifact with outputs := [1, 0] } = .ok (listing [1, 0]) ∧
      (graphAnswer (listing [1, 0])).1.isOk = true ∧
      ∃ xs, ((listing [1, 0]).callWith inputs {} (context fresh)).1 = .ok xs ∧ xs.length = 2 := by
  have loaded : Program.load { artifact with outputs := [1, 0] } = .ok (listing [1, 0]) :=
    Except.eq_ok_of_isOk (by decide +kernel)
  have count : inputs.length = (listing [1, 0]).inputs.length := by decide +kernel
  have answered : (graphAnswer (listing [1, 0])).1.isOk = true := by decide +kernel
  have wanted : (listing [1, 0]).wanted {} = [⟨1⟩, ⟨0⟩] := by decide +kernel
  obtain ⟨-, -, returns⟩ := Program.call_returns loaded (o := {}) (c := context fresh) count nofun
  obtain ⟨plan, run, n, ms, accelerating, -, -, -, all, -⟩ :=
    returns (graphAnswer (listing [1, 0])) _ _ ⟨.inr rfl, Program.callWith_eq count rfl⟩
      (Except.eq_ok_of_isOk answered)
  rw [wanted] at all
  obtain ⟨xs, ok, fits⟩ := all (by decide)
  exact ⟨loaded, answered, xs, ok, fits.length_eq.symm⟩

/-- Listed twice, the negation is computed, but not returned. -/
theorem listed_twice_lost :
    Program.load { artifact with outputs := [1, 1] } = .ok (listing [1, 1]) ∧
      (graphAnswer (listing [1, 1])).1.isOk = true ∧
      (listing [1, 1]).Runs inputs {} (context fresh) (graphAnswer (listing [1, 1]))
        ((listing [1, 1]).callWith inputs {} (context fresh)) ∧
      ((listing [1, 1]).callWith inputs {} (context fresh)).1 = .error (.unknownValue ⟨1⟩) := by
  have loaded : Program.load { artifact with outputs := [1, 1] } = .ok (listing [1, 1]) :=
    Except.eq_ok_of_isOk (by decide +kernel)
  have count : inputs.length = (listing [1, 1]).inputs.length := by decide +kernel
  have told : failure? ((listing [1, 1]).callWith inputs {} (context fresh)).1 =
      some (.unknownValue ⟨1⟩) := by decide +kernel
  refine ⟨loaded, by decide +kernel, ⟨.inr rfl, Program.callWith_eq count rfl⟩, ?_⟩
  cases result : ((listing [1, 1]).callWith inputs {} (context fresh)).1 with
  | ok xs => simp [failure?, result] at told
  | error err =>
      simp only [failure?, result, Option.some.injEq] at told
      rw [told]

end Collision.Negation

end HomCircuit
