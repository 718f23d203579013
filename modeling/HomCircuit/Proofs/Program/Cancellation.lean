import HomCircuit.Proofs.Context.Tokens
import HomCircuit.Proofs.Program.Safety
import HomCircuit.Proofs.Schedule.Foreign

/-!
# HomCircuit.Proofs.Program.Cancellation

Whom a cancellation concerns, from the token that is cancelled to the calls that stop.

```
token cancelled    it was, or a copy of it, or all that was in flight since it was issued
its call           starts nothing from then on
other calls        go on as if nothing had happened
```

* `Context.cancelAll` — cancellations in a context;
* `Context.beginFresh` — a call begins with a token of its own;
* `Context.alike_beginFresh` — its token stands as it would without the cancellations of others;
* `Context.cancellation_observed` — the laws of cancellation in a context, whatever has happened to it.
-/

namespace HomCircuit

/-! ## cancellations of others -/

/-- Some tokens are cancelled, and, at each `none`, all that is in flight. -/
def Cancellation.cancelAll (s : Cancellation) (which : List (Option CancelToken)) : Cancellation :=
  which.foldl (fun s x => x.elim s.advance s.raise) s

namespace Cancellation

variable {s s' : Cancellation} {t t' : CancelToken}

/-- Cancellations of tokens that were issued issue none, and hand none over. -/
theorem Sane.cancelAll (h : s.Sane) {which : List (Option CancelToken)}
    (known : ∀ x, some x ∈ which → x.number < s.issued) :
    (s.cancelAll which).Sane ∧ (s.cancelAll which).issued = s.issued := by
  induction which generalizing s with
  | nil => exact ⟨h, rfl⟩
  | cons first rest ih =>
      have others : ∀ x, some x ∈ rest → x.number < s.issued :=
        fun x mem => known x (List.mem_cons_of_mem _ mem)
      cases first with
      | none => exact ih h.advance others
      | some x => exact ih (h.raise (known x List.mem_cons_self)) others

/-- Cancellations of other tokens do not tell apart what stands alike. -/
theorem Alike.cancelAll (h : Alike t t' s s') {others : List CancelToken}
    (foreign : ∀ x ∈ others, x.number ≠ t.number) : Alike t t' (s.cancelAll (others.map some)) s' := by
  induction others generalizing s with
  | nil => exact h
  | cons x rest ih =>
      obtain ⟨apart, foreign⟩ := List.forall_mem_cons.mp foreign
      exact ih (h.raise_foreign apart) foreign

end Cancellation

namespace Context

/-- A context in which some tokens were cancelled, and, at each `none`, all that was in flight. -/
def cancelAll (c : Context) (which : List (Option CancelToken)) : Context :=
  which.foldl (fun c x => x.elim c.cancelInFlight fun t => c.cancel t) c

/-- Who makes the token of a call: the call itself, its caller, or its caller without the context. -/
inductive TokenMaker
  | call
  | caller
  | stranger
  deriving DecidableEq

/-- A call begins with a fresh token. -/
def beginFresh (c : Context) : TokenMaker → CancelToken × Context
  | .call => c.begin none
  | .caller => c.token.2.begin (some c.token.1)
  | .stranger => c.freeToken.2.begin (some c.freeToken.1)

variable {c : Context}

/-- Cancellations change nothing else. -/
theorem cancelAll_eq (c : Context) (which : List (Option CancelToken)) :
    c.cancelAll which =
      { c with resources := c.resources.under (c.resources.cancellation.cancelAll which) } := by
  induction which generalizing c with
  | nil => rfl
  | cons first rest ih =>
      cases first with
      | none => exact ih c.cancelInFlight
      | some t => exact ih (c.cancel t)

/-- Tokens that are issued under different cancellations stand alike when their calls begin. -/
theorem alike_issue (sane : c.resources.cancellation.Sane) {s : Cancellation} (sane' : s.Sane)
    (issued : s.issued = c.issued) (maker : TokenMaker) :
    let d : Context := { c with resources := c.resources.under s }
    Cancellation.Alike (d.beginFresh maker).1 (c.beginFresh maker).1
      (d.beginFresh maker).2.resources.cancellation
      (c.beginFresh maker).2.resources.cancellation := by
  have unseen : s.issued ∉ c.resources.cancellation.raised :=
    fun mem => absurd (sane.raised _ mem) (by rw [issued]; exact Nat.lt_irrefl _)
  have unseen' : s.issued ∉ s.raised := fun mem => Nat.lt_irrefl _ (sane'.raised _ mem)
  have raised := iff_of_false unseen unseen'
  have epochs : some (c.resources.cancellation.epoch - c.resources.cancellation.epoch) =
      some (s.epoch - s.epoch) := by rw [sub_self, sub_self]
  cases maker with
  | call => exact ⟨issued.symm, raised, epochs, iff_of_false nofun nofun⟩
  | caller =>
      exact ⟨issued.symm, raised, epochs, iff_of_true ⟨_, rfl, issued.symm⟩ ⟨_, rfl, rfl⟩⟩
  | stranger =>
      exact ⟨issued.symm, raised, rfl, iff_of_true ⟨_, rfl, issued.symm⟩ ⟨_, rfl, rfl⟩⟩

/-- A call begins with a fresh token: earlier cancellations, and later ones of other tokens, change
neither where the token stands nor anything but cancellations. -/
theorem alike_beginFresh (sane : c.resources.cancellation.Sane) {earlier : List (Option CancelToken)}
    (known : ∀ x, some x ∈ earlier → x.number < c.issued) (maker : TokenMaker) {others : List CancelToken}
    (foreign : ∀ x ∈ others, x.number ≠ c.issued) :
    let t := ((c.cancelAll earlier).beginFresh maker).1
    let d := ((c.cancelAll earlier).beginFresh maker).2.cancelAll (others.map some)
    ∃ s, (c.beginFresh maker).2 = { d with resources := d.resources.under s } ∧
      Cancellation.Alike t (c.beginFresh maker).1 d.resources.cancellation s := by
  obtain ⟨sane', issued⟩ := sane.cancelAll known
  have apart : ∀ x ∈ others, x.number ≠ (c.resources.cancellation.cancelAll earlier).issued :=
    fun x mem => issued ▸ foreign x mem
  simp only [cancelAll_eq]
  refine ⟨(c.beginFresh maker).2.resources.cancellation, ?_, ?_⟩
  · cases maker <;> rfl
  · refine (alike_issue sane sane' issued maker).cancelAll ?_
    cases maker <;> exact apart

/-- The answer of a call by the clock, case by case. -/
theorem executed_eq (c : Context) (g : Graph) (partitions : Registry)
    (supplied : List (ValueId × Value)) (o : CallOptions) (t : CancelToken) :
    c.executed g partitions supplied o t =
      if c.shut then (.error .contextShutDown, {}, c.resources)
      else
        match Plan.prepare g o (c.mode = .accelerator && c.resources.hasDevices) with
        | .error err => (.error err, {}, c.resources)
        | .ok p => p.execute (c.environment partitions t) (c.workers?.getD 1) supplied c.resources := by
  unfold executed execute
  split
  · rfl
  · cases Plan.prepare g o (c.mode = .accelerator && c.resources.hasDevices) <;> rfl

/-- Calls of a graph under cancellations that stand alike for their tokens answer the same. -/
theorem executed_alike {t t' : CancelToken} {s : Cancellation}
    (alike : Cancellation.Alike t t' c.resources.cancellation s) (g : Graph) (partitions : Registry)
    (supplied : List (ValueId × Value)) (o : CallOptions) :
    Answer.Same (c.executed g partitions supplied o t)
      ({ c with resources := c.resources.under s }.executed g partitions supplied o t') := by
  let d : Context := { c with resources := c.resources.under s }
  have prepared : Plan.prepare g o (d.mode = .accelerator && d.resources.hasDevices) =
      Plan.prepare g o (c.mode = .accelerator && c.resources.hasDevices) := rfl
  change Answer.Same _ (d.executed g partitions supplied o t')
  rw [executed_eq, executed_eq, prepared]
  cases live : c.shut with
  | true => constructor <;> simp [d]
  | false =>
      cases Plan.prepare g o (c.mode = .accelerator && c.resources.hasDevices) with
      | error err => constructor <;> simp [d]
      | ok p =>
          simp only [d, live]
          exact Plan.execute_indifferent (e := c.environment partitions t) alike _

/-! ## cancellations observed -/

/-- Whatever has happened to a context since it was made, a token of it is cancelled exactly if it or
another one of its origin was, or all that was in flight since; once its token is cancelled, a call
starts no node, and if it was cancelled before anything started, it says so and skips all that is
alive; and a call that begins with a fresh token goes on as if neither earlier cancellations nor those of
other tokens had happened. The epochs come back to where they were after 2 ^ 64 cancellations of all that
is in flight. -/
theorem cancellation_observed {asked : Partition → Prop} {o : ContextOptions} {ps : Primitives}
    {devices : List Device} {c₀ c : Context} (fresh : start o ps devices = .done c₀)
    (history : c₀.Reaches asked c) :
    -- which tokens are cancelled, whatever their holders do
    (∀ acts : List TokenAct, acts.count .cancelInFlight < 2 ^ 64 →
      List.Forall₂
        (fun origin t => (c.after acts).isCancelled t = true ↔ TokenAct.Cancels acts origin)
        (TokenAct.origins acts) (c.held acts)) ∧
    -- they stay so
    (∀ acts more : List TokenAct, (acts ++ more).count .cancelInFlight < 2 ^ 64 →
      ∀ t ∈ c.held acts, (c.after acts).isCancelled t = true →
        (c.after (acts ++ more)).isCancelled t = true) ∧
    -- whoever asks for a node after the cancellation is told to stop, and no node starts any more
    (∀ (e : Environment) (p : Plan) (run : Run) (workers : Nat) (before after : List Move),
      let now := (Crew.initial run workers).moves e p before
      now.cancellation.isCancelled e.token = true →
        (now.run.next e p).1 = .stop ∧
        (now.cancellation.since e.token + now.advances e p after < 2 ^ 64 →
          (now.moves e p after).cancellation.isCancelled e.token = true ∧
          (now.moves e p after).run.dispatch.started = now.run.dispatch.started)) ∧
    -- a call that begins cancelled starts nothing, however its workers take turns and by the clock
    (∀ (nodes : List Node) (arguments : List (ValueId × PartitionId)) (g : Graph),
      Graph.build nodes arguments = .ok g →
      ∀ (o : CallOptions) (p : Plan),
        Plan.prepare g o (c.mode = .accelerator && c.resources.hasDevices) = .ok p →
        p.liveIndices ≠ [] → ∀ t, c.isCancelled t = true → c.shut = false →
      ∀ (partitions : Registry) (supplied : List (ValueId × Value)) (run : Run),
        let e := c.environment partitions t
        Run.bind e p supplied p.graph.arguments.toList (Run.initial p c.resources) = (.ok (), run) →
        Answer.CancelledAtOnce p (c.executed g partitions supplied o t) ∧
        ∀ (workers : Nat) (ms : List Move),
          c.resources.cancellation.since t + ms.count .cancelInFlight < 2 ^ 64 →
          let ended := (Plan.crew run workers).moves e p ms
          ((∀ k < (Plan.crew run workers).threads.length, .worker k ∈ ms) → ended.allGone = true) ∧
          (ended.allGone = true → Answer.CancelledAtOnce p (ended.run.finish p (.ok ())))) ∧
    -- a call with a fresh token takes no notice of earlier cancellations and of other tokens
    (∀ (earlier : List (Option CancelToken)) (maker : TokenMaker) (others : List CancelToken),
      (∀ x, some x ∈ earlier → x.number < c.issued) → (∀ x ∈ others, x.number ≠ c.issued) →
      let (t, begun) := (c.cancelAll earlier).beginFresh maker
      let (t', quiet) := c.beginFresh maker
      let d := begun.cancelAll (others.map some)
      ∀ (partitions : Registry) (supplied : List (ValueId × Value)),
        let e := d.environment partitions t
        let e' := quiet.environment partitions t'
        (∀ (g : Graph) (o : CallOptions),
          Answer.Same (d.executed g partitions supplied o t)
            (quiet.executed g partitions supplied o t')) ∧
        ∀ p : Plan,
          let start := Run.bind e p supplied p.graph.arguments.toList (Run.initial p d.resources)
          let start' := Run.bind e' p supplied p.graph.arguments.toList (Run.initial p quiet.resources)
          start'.1 = start.1 ∧
          ∀ (workers : Nat) (ms : List Move),
            let ended := (Plan.crew start.2 workers).moves e p ms
            let ended' := (Plan.crew start'.2 workers).moves e' p (ms.filter (Move.concerns t))
            ended'.allGone = ended.allGone ∧
            Answer.Same (ended.run.finish p (.ok ())) (ended'.run.finish p (.ok ()))) := by
  have sane := (clean_of_reaches fresh history).cancellation
  refine ⟨fun acts few => forall₂_isCancelled_iff sane few,
    fun acts more few t there => isCancelled_append sane few there, ?_, ?_, ?_⟩
  · intro e p run workers before after now cancelled
    refine ⟨by rw [Run.next_of_cancelled cancelled], fun few => ?_⟩
    exact Crew.lasts_moves (Crew.Blind.initial.moves before) after ⟨cancelled, few⟩
  · intro nodes arguments g built o p prepared alive t cancelled live partitions supplied run e bound
    have sound := (Plan.sound_of_prepare (Graph.wired_of_build built) prepared).1
    refine ⟨?_, fun workers ms few => ⟨fun moved => ?_, fun gone => ?_⟩⟩
    · rw [executed_eq, live, prepared]
      exact Plan.cancelled_execute (e := e) alive cancelled sound bound _
    · exact Plan.allGone_of_moves (e := e) cancelled sound bound workers ms few moved
    · exact Plan.cancelled_moves (e := e) alive cancelled sound bound workers ms few gone
  · intro earlier maker others known foreign
    obtain ⟨s, same, alike⟩ := alike_beginFresh sane known maker foreign
    generalize (c.cancelAll earlier).beginFresh maker = first at alike same ⊢
    generalize c.beginFresh maker = second at alike same ⊢
    obtain ⟨t, begun⟩ := first
    obtain ⟨t', quiet⟩ := second
    obtain rfl : quiet = _ := same
    intro partitions supplied e e'
    have stands : Cancellation.Alike e.token t'
      (begun.cancelAll (others.map some)).resources.cancellation s := alike
    exact ⟨fun g o => executed_alike stands g partitions supplied o,
      fun p => Plan.moves_indifferent stands⟩

end Context

namespace Collision.Negation

/-- A token of a fresh context. -/
def first : CancelToken := (context fresh).token.1

/-- The context in which it was issued and cancelled. -/
def revoked : Context := (context fresh).token.2.cancel first

/-- A copy that is cancelled cancels its original, a call that begins with that starts nothing, and later
calls negate as if nothing had been cancelled. -/
theorem cancellation_observed_negation :
    (revoked.after [.issue, .copy 0, .cancel 1]).isCancelled (revoked.issuedBy [] 0) = true ∧
      Answer.CancelledAtOnce plan
        (revoked.executed program.graph program.partitions (program.supply inputs) request first) ∧
      let later := (revoked.cancelAll [some first, none]).beginFresh .caller
      let quiet := revoked.beginFresh .caller
      Answer.Same
        (later.2.executed program.graph program.partitions (program.supply inputs) request later.1)
        (quiet.2.executed program.graph program.partitions (program.supply inputs) request quiet.1) ∧
      (quiet.2.executed program.graph program.partitions (program.supply inputs) request
        quiet.1).1.isOk = true := by
  have started : Context.start (context fresh).options .reference [] = .done (context fresh) := rfl
  have history : (context fresh).Reaches (fun _ => False) revoked :=
    .tail (.single .issue) (.cancel Nat.zero_lt_one)
  obtain ⟨acts, -, -, cancelled, others⟩ := Context.cancellation_observed started history
  obtain ⟨nodes, arguments, built⟩ := Program.exists_build_of_load loaded
  refine ⟨?_, ?_, ?_, by decide +kernel⟩
  · have one := acts [.issue, .copy 0, .cancel 1] (by decide)
    exact (one.get (by decide : 0 < 2) (by decide : 0 < 2)).mpr (.inl ⟨2, 1, rfl, rfl⟩)
  · have alive : plan.liveIndices ≠ [] := by decide +kernel
    exact (cancelled nodes arguments _ built request plan prepared alive first (by decide) rfl
      program.partitions (program.supply inputs) _
      (Prod.ext (Except.eq_ok_of_isOk (by decide +kernel)) rfl)).1
  · have known : ∀ x, some x ∈ [some first, none] → x.number < revoked.issued := by
      intro x mem
      obtain rfl : x = first := by simpa using mem
      exact Nat.zero_lt_one
    exact (others [some first, none] .caller [] known nofun program.partitions
      (program.supply inputs)).1 program.graph request

end Collision.Negation

end HomCircuit
