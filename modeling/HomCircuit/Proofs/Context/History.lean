import HomCircuit.Proofs.Context.Calls
import HomCircuit.Proofs.Schedule.Occurrence

/-!
# HomCircuit.Proofs.Context.History

What may have happened to a context before a call.

```
tokens issued, handed over, cancelled     keys asked for, entries dropped     partitions registered
devices out of order, and back in         calls of whatever graphs, however they ended
```

A call of a program is a token handed over or issued, and a call of its graph. The partitions whose keys
may be asked for are those of the calls, and those that callers ask for themselves.

* `Context.Step` — one thing that happens, `Context.Reaches` — any number of them;
* `Context.eq_of_start`, `Context.remotes_of_start` — a fresh context;
* `Context.Reaches.unchanged` — what no history changes.
-/

namespace HomCircuit

/-- Only tokens that were issued can be cancelled. -/
def Occurrence.Known (issued : Nat) : Occurrence → Prop
  | .move (.raise t) => t.number < issued
  | _ => True

namespace Context

/-- Number of tokens that the context has issued. -/
def issued (c : Context) : Nat := c.resources.cancellation.issued

/-- Something happens to a context, and keys of some partitions at most are asked for. -/
inductive Step (asked : Partition → Prop) (c : Context) : Context → Prop
  | issue : c.Step asked c.token.2
  | issueFree : c.Step asked c.freeToken.2
  | handOver {t : Option CancelToken} (known : ∀ x ∈ t, x.number < c.issued) :
      c.Step asked (c.handOver t)
  | cancel {t : CancelToken} (known : t.number < c.issued) : c.Step asked (c.cancel t)
  | cancelInFlight : c.Step asked c.cancelInFlight
  | fetch {q : Partition} (known : asked q) : c.Step asked (c.keySet q).2
  | forget (keep : KeyId → KeySlot → Bool) :
      c.Step asked { c with
        resources := { c.resources with keys := (c.resources.keys.retain keep).2 } }
  | register (q : Partition) : c.Step asked (c.register q).2
  | switch (i : Nat) (faulted : Bool) :
      c.Step asked { c with resources := c.resources.switch i faulted }
  | call {g : Graph} {partitions : Registry} {supplied : List (ValueId × Value)} {o : CallOptions}
      {t : CancelToken} {p : Plan} {workers : Nat} {answer : Answer} (wired : g.Wired)
      (known : ∀ q ∈ partitions.partitions, asked q)
      (prepared : Plan.prepare g o (c.mode = .accelerator && c.resources.hasDevices) = .ok p)
      (ends : p.MayEnd (Occurrence.Known c.issued) (c.environment partitions t) workers supplied
        c.resources answer) :
      c.Step asked { c with resources := answer.2.2 }

/-- What happens to a context, one after the other. -/
def Reaches (asked : Partition → Prop) : Context → Context → Prop :=
  Relation.ReflTransGen (Step asked)

variable {asked asked' : Partition → Prop} {c c' : Context}

/-- Keys of more partitions may be asked for. -/
theorem Step.mono (more : ∀ q, asked q → asked' q) (h : c.Step asked c') : c.Step asked' c' := by
  cases h with
  | issue => exact .issue
  | issueFree => exact .issueFree
  | handOver known => exact .handOver known
  | cancel known => exact .cancel known
  | cancelInFlight => exact .cancelInFlight
  | fetch known => exact .fetch (more _ known)
  | forget keep => exact .forget keep
  | register q => exact .register q
  | switch i faulted => exact .switch i faulted
  | call wired known prepared ends =>
      exact .call wired (fun q mem => more q (known q mem)) prepared ends

theorem Reaches.mono (more : ∀ q, asked q → asked' q) (h : c.Reaches asked c') :
    c.Reaches asked' c' := by
  induction h with
  | refl => exact .refl
  | tail _ step ih => exact ih.tail (step.mono more)

/-- What each thing that happens keeps, a history keeps. -/
theorem Reaches.keeps {P : Context → Prop} (keeps : ∀ c c', P c → c.Step asked c' → P c')
    (h : c.Reaches asked c') (now : P c) : P c' := by
  induction h with
  | refl => exact now
  | tail _ step ih => exact keeps _ _ ih step

/-- Nothing that happens changes the options or the primitives of a context, or shuts it down. -/
theorem Step.unchanged (h : c.Step asked c') :
    c'.options = c.options ∧ c'.primitives = c.primitives ∧ c'.shut = c.shut := by
  cases h with
  | _ => exact ⟨rfl, rfl, rfl⟩

/-- So no history does. -/
theorem Reaches.unchanged (h : c.Reaches asked c') :
    c'.options = c.options ∧ c'.primitives = c.primitives ∧ c'.shut = c.shut := by
  refine h.keeps (P := fun d =>
    d.options = c.options ∧ d.primitives = c.primitives ∧ d.shut = c.shut) ?_ ⟨rfl, rfl, rfl⟩
  rintro before after ⟨options, primitives, shut⟩ step
  obtain ⟨options', primitives', shut'⟩ := step.unchanged
  exact ⟨options'.trans options, primitives'.trans primitives, shut'.trans shut⟩

/-- A call begins with a token that is handed over, or issued. -/
theorem reaches_begin {token : Option CancelToken} (known : ∀ x ∈ token, x.number < c.issued) :
    c.Reaches asked (c.begin token).2 := by
  cases token with
  | none => exact .tail (.single (.handOver (t := none) nofun)) .issue
  | some t => exact .single (.handOver known)

/-- A fresh context has an empty cache and nothing to cancel. -/
theorem eq_of_start {o : ContextOptions} {ps : Primitives} {devices : List Device}
    (fresh : Context.start o ps devices = .done c) :
    ∃ remotes, c =
      { options := o, primitives := ps
        resources :=
          { keys := .empty o.cacheCapacity, inventory := inventory? o ps devices, remotes } } := by
  unfold start at fresh
  split at fresh
  · contradiction
  · next made =>
      split at fresh
      · obtain rfl := Outcome.done.inj fresh
        obtain ⟨-, -, rfl⟩ := Except.exists_of_map made
        exact ⟨_, rfl⟩
      · contradiction

/-- It has as many remote workers as it was told to have, and each of them has started. -/
theorem remotes_of_start {o : ContextOptions} {ps : Primitives} {devices : List Device}
    (fresh : Context.start o ps devices = .done c) :
    c.resources.remotes.length = o.remoteWorkers ∧ ∀ w ∈ c.resources.remotes,
      (∃ i name, RemoteWorker.start? i name (remoteOptions o ps) = some w) ∧
        w.options = remoteOptions o ps := by
  unfold start at fresh
  split at fresh
  · contradiction
  · next made =>
      split at fresh
      · next able =>
          obtain rfl := Outcome.done.inj fresh
          obtain ⟨-, -, rfl⟩ := Except.exists_of_map made
          refine ⟨by simp, fun w mem => ?_⟩
          have starts := List.all_eq_true.mp able w mem
          obtain ⟨i, -, rfl⟩ := List.mem_map.mp mem
          exact ⟨⟨i, _, if_pos starts⟩, rfl⟩
      · contradiction

end Context

end HomCircuit
