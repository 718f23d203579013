import HomCircuit.Boundary.Thread
import HomCircuit.Proofs.Boundary.Entry

/-!
# HomCircuit.Proofs.Boundary.Thread

What threads are told of faults.

```
thread 0     call ✗ f ────────────── call ✓ ──▸ last fault f
thread 1     ─────── call ✗ g ─ call ✗ h ─────▸ last fault h
```

* `World.atomic_body` — a call that fails leaves its output alone, the writing of a program's outputs
  apart;
* `World.lastFault_step`, `World.lastFault_run` — what is kept of faults.
-/

namespace HomCircuit.Boundary

/-- A number is written when nothing can fail any more. -/
theorem atomic_tell {α : Type} {word : α → UInt64} {number : Bool → Body α}
    (h : ∀ place, (number place).Spares) : (tell word number).Atomic := by
  have place : Body.place.Spares := by
    intro s
    obtain ⟨c, _ | _⟩ := s <;> rfl
  exact place.andThen fun there => (h there).andThen fun _ => Body.atomic_write _ _

namespace World

variable {w : World}

/-- A call on a context leaves its output alone if it fails, unless it runs a program. -/
theorem atomic_body {e : Entry} (idle : ∀ handle inputs answering,
    e = .callProgram handle inputs answering → w.program? handle = none) : (w.body e).Atomic := by
  cases e with
  | register => exact atomic_tell fun _ => spares_register _ _ _ _ _
  | ciphertextLength => exact atomic_tell fun _ => spares_ciphertextLength _ _
  | encrypt => exact atomic_encrypt _ _ _
  | decrypt => exact atomic_tell fun _ => spares_decrypt _ _ _
  | add => exact atomic_add _ _ _
  | neg => exact atomic_neg _ _
  | mulPlain => exact atomic_mulPlain _ _ _
  | lookUp => exact atomic_lookUp _ _ _
  | callProgram handle inputs answering =>
      simp only [body, idle handle inputs answering rfl]
      exact (Body.spares_throw _).atomic

/-- A call keeps the text of its fault for its thread, and leaves those of other threads. -/
theorem lastFault_step (w : World) (thread : Nat) (call : Call) (t : Nat) :
    (w.step thread call).2.lastFault t =
      if t = thread then noteFault (w.lastFault t) (w.step thread call).1 else w.lastFault t := by
  cases call with
  | createContext parallelism flags cacheCapacity place =>
      simp only [step]
      split <;> simp [note, noteFault]
  | loadProgram document place =>
      simp only [step]
      split <;> simp [note, noteFault]
  | destroyContext i => simp [step, noteFault]
  | freeProgram i => simp [step, noteFault]
  | enter handle out entry => rfl

/-- The faults of a thread among those of several calls. -/
def faultsOf (thread : Nat) (told : List (Nat × Option Fault)) : List Fault :=
  told.filterMap fun call => if call.1 = thread then call.2 else none

theorem faultsOf_cons (t thread : Nat) (fault : Option Fault) (later : List (Nat × Option Fault)) :
    faultsOf t ((thread, fault) :: later) =
      (if thread = t then fault.toList else []) ++ faultsOf t later := by
  by_cases same : thread = t <;> cases fault <;> simp [faultsOf, same]

/-- After any calls the text that is kept for a thread is that of its last fault, or what was kept before
if it met none. -/
theorem lastFault_run (w : World) (calls : List (Nat × Call)) (t : Nat) :
    (w.run calls).2.lastFault t =
      ((faultsOf t (w.run calls).1).getLast?.map Fault.text).or (w.lastFault t) := by
  induction calls generalizing w with
  | nil => rfl
  | cons call rest ih =>
      obtain ⟨thread, call⟩ := call
      simp only [run, ih, lastFault_step, faultsOf_cons, List.getLast?_append, Option.map_or]
      by_cases same : thread = t
      · cases (w.step thread call).1 <;> simp [same, noteFault]
      · simp [same, Ne.symm same]

end World

end HomCircuit.Boundary
