import HomCircuit.Proofs.Schedule.Confined
import HomCircuit.Proofs.Schedule.Returns

/-!
# HomCircuit.Proofs.Schedule.Occurrence

What a call may end with, also while devices fail and recover.

```
arguments refused                     the resources are those of before
workers, cancellations and devices    what every section, every release and the switch of a device keep
```

* `Occurrence`, `Crew.occurs` — moves of a call, and devices that are put out of order and back in;
* `Plan.MayEnd` — the answers that occurrences of some kind lead to;
* `Plan.MayEnd.kept` — what a conduct keeps is kept when the call has ended.
-/

namespace HomCircuit

/-! ## occurrences -/

/-- What happens next: a move of the call, or a device that is put out of order or back in. -/
inductive Occurrence
  | move (m : Move)
  | switch (i : Nat) (faulted : Bool)

/-- Puts a device out of order, or back in. -/
def Inventory.switch (i : Nat) (faulted : Bool) (v : Inventory) : Inventory :=
  v.setDevice i { v.device i with faulted }

/-- Puts a device of a context out of order, or back in. -/
def Resources.switch (i : Nat) (faulted : Bool) (r : Resources) : Resources :=
  { r with inventory := r.inventory.map (·.switch i faulted) }

namespace Crew

variable (e : Environment) (p : Plan)

/-- One occurrence. -/
def occur (c : Crew) : Occurrence → Crew
  | .move m => c.move e p m
  | .switch i faulted =>
    { c with run := { c.run with resources := c.run.resources.switch i faulted } }

/-- Occurrences one after the other. -/
def occurs (c : Crew) (os : List Occurrence) : Crew := os.foldl (occur e p) c

/-- An interleaving is one of occurrences. -/
theorem occurs_moves (c : Crew) (ms : List Move) : c.occurs e p (ms.map .move) = c.moves e p ms := by
  unfold occurs moves
  rw [List.foldl_map]
  rfl

variable {e p} {C : Conduct e p} {c : Crew}

/-- What happens to a call keeps its ledger, if the switch of a device takes away nothing. -/
theorem Valid.occurs (sound : p.Sound)
    (switches : ∀ i faulted ds r, C.kept ds r → C.kept ds (r.switch i faulted)) (v : c.Valid C)
    (os : List Occurrence) : (c.occurs e p os).Valid C := by
  induction os generalizing c with
  | nil => exact v
  | cons o rest ih =>
      cases o with
      | move m => exact ih (v.move sound m)
      | switch i faulted => exact ih (v.onResources (switches i faulted))

end Crew

/-! ## the end of a call -/

/-- The answers that a call may give: its arguments are refused, or things happen that may until all of
its workers are gone. -/
inductive Plan.MayEnd (p : Plan) (may : Occurrence → Prop) (e : Environment) (workers : Nat)
    (supplied : List (ValueId × Value)) (resources : Resources) : Answer → Prop
  | refused {err : RunError} {run : Run}
      (bound : Run.bind e p supplied p.graph.arguments.toList (Run.initial p resources) =
        (.error err, run)) :
      p.MayEnd may e workers supplied resources (run.finish p (.error err))
  | finished {run : Run} (os : List Occurrence) (allowed : ∀ o ∈ os, may o)
      (bound : Run.bind e p supplied p.graph.arguments.toList (Run.initial p resources) =
        (.ok (), run))
      (gone : ((Plan.crew run workers).occurs e p os).allGone = true) :
      p.MayEnd may e workers supplied resources
        (((Plan.crew run workers).occurs e p os).run.finish p (.ok ()))

section End

variable {e : Environment} {p : Plan} {supplied : List (ValueId × Value)} {resources : Resources}
  {workers : Nat} {answer : Answer} {may : Occurrence → Prop}

/-- A call whose devices nobody touches is one of them. -/
theorem Plan.MayReturn.mayEnd (h : p.MayReturn e workers supplied resources answer) :
    p.MayEnd (fun _ => True) e workers supplied resources answer := by
  cases h with
  | refused bound => exact .refused bound
  | finished ms bound gone =>
      rw [← Crew.occurs_moves] at gone ⊢
      exact .finished _ (fun _ _ => trivial) bound gone

/-- Everything in the slots is on the host. -/
def Run.AtHome (r : Run) : Prop := ∀ slot b, r.arena.get? slot = some b → b.payload.AtHome

theorem Run.atHome_initial (p : Plan) (resources : Resources) : (Run.initial p resources).AtHome := by
  intro slot b found
  simp [Run.initial, Arena.get?_ofCounts] at found

/-- Arguments are put in place on the host, whether all of them are accepted or not. -/
theorem Run.atHome_bind (arguments : List (ValueId × PartitionId)) {r : Run} (home : r.AtHome) :
    (Run.bind e p supplied arguments r).2.AtHome := by
  induction arguments generalizing r with
  | nil => exact home
  | cons a rest ih =>
      unfold Run.bind
      split
      · exact home
      · next slot _ =>
          split
          · exact ih home
          · split
            · exact home
            · next b accepted =>
                refine ih fun slot' b' found => ?_
                rw [Arena.get?_store] at found
                split at found
                · exact Option.some.inj found ▸ Run.argument_host accepted
                · exact home slot' b' found

/-- Dropping what is on the host gives nothing back. -/
theorem Resources.drop_atHome {bs : List Buffer} (home : ∀ b ∈ bs, b.payload.AtHome) (r : Resources) :
    r.drop bs = r := by
  induction bs with
  | nil => exact drop_nil r
  | cons b rest ih =>
      obtain ⟨⟨x, here⟩, others⟩ := List.forall_mem_cons.mp home
      rw [drop_cons, drop_host r here, ih others]

/-- A call whose arguments are refused leaves the resources as they were. -/
theorem Run.resources_refused {err : RunError} {run : Run}
    (bound : Run.bind e p supplied p.graph.arguments.toList (Run.initial p resources) =
      (.error err, run)) : (run.finish p (.error err)).2.2 = resources := by
  have home : (Run.bind e p supplied p.graph.arguments.toList (Run.initial p resources)).2.AtHome :=
    Run.atHome_bind _ (Run.atHome_initial p resources)
  have same := Run.resources_bind (e := e) (p := p) supplied p.graph.arguments.toList
    (Run.initial p resources)
  rw [bound] at home same
  refine Eq.trans (Resources.drop_atHome (fun b mem => ?_) run.resources) same
  rw [Arena.fst_clear] at mem
  obtain ⟨slot, -, found⟩ := List.mem_filterMap.mp mem
  exact home slot b found

/-- What a conduct keeps is kept when the call has ended, whatever has happened. -/
theorem Plan.MayEnd.kept {C : Conduct e p} (sound : p.Sound)
    (switches : ∀ i faulted ds r, C.kept ds r → C.kept ds (r.switch i faulted))
    (admits : Stock.Admits e p supplied C.good) (kept : C.kept [] resources)
    (h : p.MayEnd may e workers supplied resources answer) : C.kept [] answer.2.2 := by
  cases h with
  | refused bound => exact (Run.resources_refused bound).symm ▸ kept
  | finished os _ bound gone =>
      have valid := (Ledger.crew sound kept admits bound workers []).occurs sound switches os
      exact (valid.finish sound gone).1

end End

end HomCircuit
