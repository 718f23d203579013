import HomCircuit.Boundary.Body
import Mathlib

/-!
# HomCircuit.Proofs.Boundary.Body

What the steps of an entry point do to the caller's output.

```
checks, lookups, calls      the output is left alone
write                       never fails
```

So an entry point that writes last leaves the output alone whenever it tells of a fault.

* `Body.exec` — the steps as a function of what they work on, with one equation for each way to build
  them;
* `Body.Spares` — steps that leave the output alone, `Body.Atomic` — steps that do so if they fail;
* `Fault.text_no_zero` — the text that is kept of a fault ends nowhere before its end.
-/

namespace HomCircuit.Boundary

/-- The text that is kept has no zero character. -/
theorem Fault.text_no_zero (f : Fault) : '\x00' ∉ f.text.toList := by
  simp only [Fault.text, String.toList_ofList, List.mem_map, not_exists, not_and]
  intro c _
  split <;> simp_all

/-- Words that may be read, and of which there are some, are not at a null place. -/
theorem Words.eq_stored_of_get {what : String} {w : Words} {words : List UInt64}
    (h : w.get what = .ok words) (some_ : words ≠ []) : w = .stored words := by
  cases w with
  | stored old => exact congrArg Words.stored (Except.ok.inj h)
  | null n =>
      simp only [get] at h
      split at h
      · exact absurd (Except.ok.inj h).symm some_
      · contradiction

/-- To be told of a success is to have met no fault. -/
theorem Reply.status_eq_ok_iff {α : Type} {r : Reply α} : r.status = .ok ↔ ∃ a, r.result = .ok a := by
  unfold status fault?
  cases r.result with
  | ok a => simp
  | error f => simpa using f.failed

namespace Body

variable {α β : Type} {b : Body α} {k : α → Body β} {s : Scene}

/-- What steps give and leave behind, when they work on something. -/
def exec (b : Body α) (s : Scene) : Except Fault α × Scene := b.run.run s

theorem enter_eq (c : Context) (out : Words) (b : Body α) :
    enter (some c) out b =
      { result := (b.exec ⟨c, out⟩).1, out := (b.exec ⟨c, out⟩).2.out
        context := some (b.exec ⟨c, out⟩).2.context } := rfl

/-! ## one step after the other -/

@[simp] theorem exec_pure (a : α) (s : Scene) : (pure a : Body α).exec s = (.ok a, s) := rfl

@[simp] theorem exec_throw (f : Fault) (s : Scene) : (throw f : Body α).exec s = (.error f, s) := rfl

@[simp] theorem exec_bind (b : Body α) (k : α → Body β) (s : Scene) :
    (b >>= k).exec s =
      match b.exec s with
      | (.ok a, s') => (k a).exec s'
      | (.error f, s') => (.error f, s') := by
  simp only [exec, ExceptT.run_bind, StateT.run_bind]
  generalize b.run.run s = r
  obtain ⟨_ | _, _⟩ := r <;> rfl

@[simp] theorem exec_map (f : α → β) (b : Body α) (s : Scene) :
    (f <$> b).exec s = ((b.exec s).1.map f, (b.exec s).2) := by
  rw [map_eq_pure_bind, exec_bind]
  generalize b.exec s = r
  obtain ⟨_ | _, _⟩ := r <;> rfl

@[simp] theorem exec_lift (r : Except Fault α) (s : Scene) : (lift r).exec s = (r, s) := rfl

@[simp] theorem exec_liftRun (r : Except RunError α) (s : Scene) :
    (liftRun r).exec s = (r.mapError .ofError, s) := rfl

@[simp] theorem exec_context (s : Scene) : context.exec s = (.ok s.context, s) := rfl

@[simp] theorem exec_output (what : String) (s : Scene) :
    (output what).exec s = (s.out.get what, s) := rfl

@[simp] theorem exec_inContext (act : Context → Except RunError α × Context) (s : Scene) :
    (inContext act).exec s =
      ((act s.context).1.mapError .ofError, { s with context := (act s.context).2 }) := rfl

@[simp] theorem exec_checkLength (what : String) (expected actual : Nat) (s : Scene) :
    (checkLength what expected actual).exec s =
      (if expected = actual then .ok () else .error (.ofError (.bufferShape what expected actual)),
        s) := by
  unfold checkLength
  split <;> rfl

theorem exec_write (offset : Nat) (words old : List UInt64) (c : Context) :
    (write offset words).exec ⟨c, .stored old⟩ =
      (.ok (), ⟨c, .stored (old.take offset ++ words ++ old.drop (offset + words.length))⟩) := rfl

/-- Steps that give something for each member of a list, and change nothing. -/
theorem exec_mapM {f : α → Body β} {g : α → β} {l : List α}
    (gives : ∀ a ∈ l, (f a).exec s = (.ok (g a), s)) : (l.mapM f).exec s = (.ok (l.map g), s) := by
  induction l with
  | nil => rfl
  | cons a rest ih =>
      obtain ⟨here, others⟩ := List.forall_mem_cons.mp gives
      simp [List.mapM_cons, here, ih others, Except.map]

/-! ## the output -/

/-- Steps that leave the output alone. -/
def Spares (b : Body α) : Prop := ∀ s, (b.exec s).2.out = s.out

/-- Entered with whatever context and output, a body that tells of a fault has left the output alone. -/
def Atomic (b : Body α) : Prop :=
  ∀ context out fault, (enter context out b).result = .error fault → (enter context out b).out = out

theorem atomic_iff : b.Atomic ↔ ∀ s f, (b.exec s).1 = .error f → (b.exec s).2.out = s.out := by
  constructor
  · exact fun h s f failed => h (some s.context) s.out f failed
  · rintro h (_ | c) out f failed
    · rfl
    · exact h ⟨c, out⟩ f failed

/-- Such a body has left the output alone if its caller is told of anything but a success. -/
theorem Atomic.out_eq (h : b.Atomic) {context : Option Context} {out : Words}
    (failed : (enter context out b).status ≠ .ok) : (enter context out b).out = out := by
  cases result : (enter context out b).result with
  | ok a => exact absurd (Reply.status_eq_ok_iff.mpr ⟨a, result⟩) failed
  | error f => exact h context out f result

theorem Spares.atomic (h : b.Spares) : b.Atomic := atomic_iff.mpr fun s _ _ => h s

@[simp] theorem spares_pure (a : α) : (pure a : Body α).Spares := fun _ => rfl

@[simp] theorem spares_throw (f : Fault) : (throw f : Body α).Spares := fun _ => rfl

@[simp] theorem spares_lift (r : Except Fault α) : (lift r).Spares := fun _ => rfl

@[simp] theorem spares_liftRun (r : Except RunError α) : (liftRun r).Spares := fun _ => rfl

@[simp] theorem spares_context : context.Spares := fun _ => rfl

@[simp] theorem spares_output (what : String) : (output what).Spares := fun _ => rfl

@[simp] theorem spares_inContext (act : Context → Except RunError α × Context) :
    (inContext act).Spares := fun _ => rfl

@[simp] theorem spares_checkLength (what : String) (expected actual : Nat) :
    (checkLength what expected actual).Spares := by
  simp [Spares]

theorem Spares.bind (h : b.Spares) (hk : ∀ a, (k a).Spares) : (b >>= k).Spares := by
  intro s
  have here := h s
  rw [exec_bind]
  generalize b.exec s = r at here
  obtain ⟨_ | a, s'⟩ := r
  · exact here
  · exact (hk a s').trans here

@[simp] theorem spares_partition (id : PartitionId) : (partition id).Spares := by
  refine spares_context.bind fun c => ?_
  split <;> simp

/-- A loop of such steps. -/
theorem spares_forIn {l : List α} {f : α → PUnit → Body (ForInStep PUnit)}
    (each : ∀ a u, (f a u).Spares) : (forIn l PUnit.unit f).Spares := by
  induction l with
  | nil => exact spares_pure _
  | cons a rest ih =>
      rw [List.forIn_cons]
      refine (each a _).bind fun r => ?_
      cases r
      · exact spares_pure _
      · exact ih

/-- To write does not fail. -/
theorem atomic_write (offset : Nat) (words : List UInt64) : (write offset words).Atomic :=
  atomic_iff.mpr fun _ _ failed => nomatch failed

/-- Steps before the last ones must leave the output alone. -/
theorem Spares.andThen (h : b.Spares) (hk : ∀ a, (k a).Atomic) : (b >>= k).Atomic := by
  refine atomic_iff.mpr fun s f => ?_
  have here := h s
  rw [exec_bind]
  generalize b.exec s = r at here
  obtain ⟨_ | a, s'⟩ := r
  · exact fun _ => here
  · exact fun failed => (atomic_iff.mp (hk a) s' f failed).trans here

/-- A check on the way to such steps. -/
theorem Atomic.unless {refuse : Prop} [Decidable refuse] {f : Fault} {next : PUnit → Body β}
    (h : ∀ u, (next u).Atomic) : (if refuse then throw f >>= next else next PUnit.unit).Atomic := by
  split
  · exact (spares_throw f).andThen h
  · exact h _

end Body

end HomCircuit.Boundary
