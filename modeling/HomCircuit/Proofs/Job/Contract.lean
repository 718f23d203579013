import Mathlib
import HomCircuit.Job

/-!
# HomCircuit.Proofs.Job.Contract

What a job guarantees although other jobs change the state between its sections.

```
pre s   before a section   →   rel s s'  across it,   and  post a  at the end
```

The others only have to see to it that `pre` holds whenever a section begins.

* `Job.Ensures` — the contract, with one rule for each way to build a job;
* `Job.Tracks` — the same for a job that has something in hand, which its sections change;
* `Job.Ensures.run`, `Job.Tracks.run` — what a contract says of a job that runs with nothing in between;
* `Job.Direct` — a job that never waits.
-/

namespace HomCircuit

/-- A result satisfies the one predicate, or an error the other. -/
def Settles {ε α : Type} (good : α → Prop) (bad : ε → Prop) : Except ε α → Prop
  | .ok a => good a
  | .error e => bad e

theorem Settles.of {ε α : Type} {P : Except ε α → Prop} {r : Except ε α} (h : P r) :
    Settles (fun a => P (.ok a)) (fun e => P (.error e)) r := by
  cases r <;> exact h

theorem Settles.mono {ε α : Type} {good good' : α → Prop} {bad bad' : ε → Prop} {r : Except ε α}
    (h : Settles good bad r) (hg : ∀ a, good a → good' a) (hb : ∀ e, bad e → bad' e) :
    Settles good' bad' r := by
  cases r with
  | ok a => exact hg a h
  | error e => exact hb e h

namespace Job

variable {σ α β : Type}

/-- In whatever state a section begins, as long as it satisfies `pre`, the section changes it along
`rel`, and the result satisfies `post`. -/
def Ensures (pre : σ → Prop) (rel : σ → σ → Prop) (post : α → Prop) : Job σ α → Prop
  | .done a => post a
  | .step act next => ∀ s, pre s → rel s (act s).2 ∧ (next (act s).1).Ensures pre rel post
  | .await _ next => next.Ensures pre rel post
  | .announce _ next => next.Ensures pre rel post

/-- The job never waits for the others. -/
def Direct : Job σ α → Prop
  | .done _ => True
  | .step _ next => ∀ b, (next b).Direct
  | .await _ _ => False
  | .announce _ next => next.Direct

variable {pre : σ → Prop} {rel : σ → σ → Prop} {mid post : α → Prop}

/-! ## contracts -/

theorem Ensures.pure {a : α} (h : post a) : (Pure.pure a : Job σ α).Ensures pre rel post := h

/-- What the first job gives is what the second one may rely on. -/
theorem Ensures.bind {goal : β → Prop} {j : Job σ α} {k : α → Job σ β}
    (h : j.Ensures pre rel mid) (hk : ∀ a, mid a → (k a).Ensures pre rel goal) :
    (j >>= k).Ensures pre rel goal := by
  induction j with
  | done a => exact hk a h
  | step act next ih =>
      intro s hs
      obtain ⟨changed, rest⟩ := h s hs
      exact ⟨changed, ih _ rest⟩
  | await ready next ih => exact ih h
  | announce calls next ih => exact ih h

/-- A contract may promise less. -/
theorem Ensures.mono {j : Job σ α} (h : j.Ensures pre rel mid) (weaker : ∀ a, mid a → post a) :
    j.Ensures pre rel post := by
  induction j with
  | done a => exact weaker a h
  | step act next ih =>
      intro s hs
      obtain ⟨changed, rest⟩ := h s hs
      exact ⟨changed, ih _ rest⟩
  | await ready next ih => exact ih h
  | announce calls next ih => exact ih h

/-- Who relies on more may promise less, also across sections. -/
theorem Ensures.weaken {pre' : σ → Prop} {rel' : σ → σ → Prop} {j : Job σ α}
    (h : j.Ensures pre' rel' mid) (before : ∀ s, pre s → pre' s)
    (across : ∀ s s', pre s → rel' s s' → rel s s') (after : ∀ a, mid a → post a) :
    j.Ensures pre rel post := by
  induction j with
  | done a => exact after a h
  | step act next ih =>
      intro s hs
      obtain ⟨changed, rest⟩ := h s (before s hs)
      exact ⟨across s _ hs changed, ih _ rest⟩
  | await ready next ih => exact ih h
  | announce calls next ih => exact ih h

theorem Ensures.atomic {act : σ → α × σ} (h : ∀ s, pre s → rel s (act s).2 ∧ post (act s).1) :
    (Job.atomic act).Ensures pre rel post := h

theorem Ensures.look {f : σ → α} (h : ∀ s, pre s → rel s s ∧ post (f s)) :
    (Job.look f).Ensures pre rel post := h

theorem Ensures.change {f : σ → σ} {goal : Unit → Prop} (h : ∀ s, pre s → rel s (f s))
    (done : goal ()) : (Job.change f).Ensures pre rel goal :=
  fun s hs => ⟨h s hs, done⟩

theorem Ensures.tell {calls : List PrimitiveCall} {goal : Unit → Prop} (done : goal ()) :
    (Job.tell calls : Job σ Unit).Ensures pre rel goal := done

/-- Every job keeps the contract that asks for nothing. -/
theorem Ensures.free (j : Job σ α) : j.Ensures (fun _ => True) (fun _ _ => True) fun _ => True := by
  induction j with
  | done a => trivial
  | step act next ih => exact fun _ _ => ⟨trivial, ih _⟩
  | await ready next ih => exact ih
  | announce calls next ih => exact ih

/-- A job on a part of a larger state keeps what it keeps of the part. -/
theorem Ensures.within {τ : Type} {get : τ → σ} {set : σ → τ → τ} {pre' : τ → Prop}
    {rel' : τ → τ → Prop} {j : Job σ α} (h : j.Ensures pre rel post)
    (before : ∀ t, pre' t → pre (get t))
    (across : ∀ t s, pre' t → rel (get t) s → rel' t (set s t)) :
    (j.within get set).Ensures pre' rel' post := by
  induction j with
  | done a => exact h
  | step act next ih =>
      intro t ht
      obtain ⟨changed, rest⟩ := h (get t) (before t ht)
      exact ⟨across t _ ht changed, ih _ rest⟩
  | await ready next ih => exact ih h
  | announce calls next ih => exact ih h

/-- Run at once, a job keeps whatever each of its sections keeps. -/
theorem Ensures.run {I : σ → Prop} {j : Job σ α} (h : j.Ensures pre rel post)
    (before : ∀ s, I s → pre s) (across : ∀ s s', I s → rel s s' → I s') {s : σ}
    (start : I s) : I (j.run s).2 ∧ post (j.run s).1 := by
  induction j generalizing s with
  | done a => exact ⟨start, h⟩
  | step act next ih =>
      obtain ⟨changed, rest⟩ := h s (before s start)
      exact ih _ rest (across s _ start changed)
  | await ready next ih => exact ih h start
  | announce calls next ih => exact ih h start

/-! ## contracts of jobs that have something in hand -/

section Tracks

variable {γ : Type} {own : γ}

/-- In whatever state a section begins, as long as it satisfies `pre` for what the job has in hand, the
section changes the state and what is in hand along `rel`; the result satisfies `post` for what is in
hand at the end. -/
def Tracks (pre : γ → σ → Prop) (rel : γ → γ → σ → σ → Prop) (post : γ → α → Prop) :
    γ → Job σ α → Prop
  | own, .done a => post own a
  | own, .step act next => ∀ s, pre own s →
      ∃ own', rel own own' s (act s).2 ∧ Tracks pre rel post own' (next (act s).1)
  | own, .await _ next => Tracks pre rel post own next
  | own, .announce _ next => Tracks pre rel post own next

variable {pre : γ → σ → Prop} {rel : γ → γ → σ → σ → Prop} {P post : γ → α → Prop}

theorem Tracks.pure {a : α} (h : post own a) : Tracks pre rel post own (Pure.pure a : Job σ α) := h

/-- What the first job gives and leaves in hand is what the second one may rely on. -/
theorem Tracks.bind {goal : γ → β → Prop} {j : Job σ α} {k : α → Job σ β}
    (h : Tracks pre rel P own j)
    (hk : ∀ own' a, P own' a → Tracks pre rel goal own' (k a)) :
    Tracks pre rel goal own (j >>= k) := by
  induction j generalizing own with
  | done a => exact hk own a h
  | step act next ih =>
      intro s hs
      obtain ⟨own', changed, rest⟩ := h s hs
      exact ⟨own', changed, ih _ rest⟩
  | await ready next ih => exact ih h
  | announce calls next ih => exact ih h

/-- A contract may promise less. -/
theorem Tracks.mono {j : Job σ α} (h : Tracks pre rel P own j)
    (weaker : ∀ own' a, P own' a → post own' a) : Tracks pre rel post own j := by
  induction j generalizing own with
  | done a => exact weaker own a h
  | step act next ih =>
      intro s hs
      obtain ⟨own', changed, rest⟩ := h s hs
      exact ⟨own', changed, ih _ rest⟩
  | await ready next ih => exact ih h
  | announce calls next ih => exact ih h

/-- What each section makes of what is in hand, the job makes of it. -/
theorem Tracks.along {R : γ → γ → Prop} {j : Job σ α} (h : Tracks pre rel post own j)
    (refl : ∀ own, R own own) (trans : ∀ own own' own'', R own own' → R own' own'' → R own own'')
    (across : ∀ own own' s s', rel own own' s s' → R own own') :
    Tracks pre rel (fun own' a => R own own' ∧ post own' a) own j := by
  induction j generalizing own with
  | done a => exact ⟨refl own, h⟩
  | step act next ih =>
      intro s hs
      obtain ⟨own', changed, rest⟩ := h s hs
      refine ⟨own', changed, (ih _ rest).mono fun own'' a both => ⟨?_, both.2⟩⟩
      exact trans own own' own'' (across own own' s _ changed) both.1
  | await ready next ih => exact ih h
  | announce calls next ih => exact ih h

theorem Tracks.atomic {act : σ → α × σ}
    (h : ∀ s, pre own s → ∃ own', rel own own' s (act s).2 ∧ post own' (act s).1) :
    Tracks pre rel post own (Job.atomic act) := h

theorem Tracks.look {f : σ → α} (h : ∀ s, pre own s → rel own own s s ∧ post own (f s)) :
    Tracks pre rel post own (Job.look f) := fun s hs => ⟨own, h s hs⟩

theorem Tracks.change {f : σ → σ} {goal : γ → Unit → Prop}
    (h : ∀ s, pre own s → ∃ own', rel own own' s (f s) ∧ goal own' ()) :
    Tracks pre rel goal own (Job.change f) := h

theorem Tracks.tell {calls : List PrimitiveCall} {goal : γ → Unit → Prop} (h : goal own ()) :
    Tracks pre rel goal own (Job.tell calls : Job σ Unit) := h

/-- A job that keeps a contract without having anything in hand. -/
theorem Ensures.tracks {pre' : σ → Prop} {rel' : σ → σ → Prop} {post' : α → Prop} {j : Job σ α}
    (h : j.Ensures pre' rel' post') (before : ∀ s, pre own s → pre' s)
    (across : ∀ s s', pre own s → rel' s s' → rel own own s s')
    (after : ∀ a, post' a → post own a) : Tracks pre rel post own j := by
  induction j with
  | done a => exact after a h
  | step act next ih =>
      intro s hs
      obtain ⟨changed, rest⟩ := h s (before s hs)
      exact ⟨own, across s _ hs changed, ih _ rest⟩
  | await ready next ih => exact ih h
  | announce calls next ih => exact ih h

/-- A job on a part of a larger state keeps what it keeps of the part. -/
theorem Tracks.within {τ : Type} {get : τ → σ} {set : σ → τ → τ} {pre' : γ → τ → Prop}
    {rel' : γ → γ → τ → τ → Prop} {j : Job σ α} (h : Tracks pre rel post own j)
    (before : ∀ own t, pre' own t → pre own (get t))
    (across : ∀ own own' t s, pre' own t → rel own own' (get t) s → rel' own own' t (set s t)) :
    Tracks pre' rel' post own (j.within get set) := by
  induction j generalizing own with
  | done a => exact h
  | step act next ih =>
      intro t ht
      obtain ⟨own', changed, rest⟩ := h (get t) (before own t ht)
      exact ⟨own', across own own' t _ ht changed, ih _ rest⟩
  | await ready next ih => exact ih h
  | announce calls next ih => exact ih h

/-- Run at once, a job keeps whatever each of its sections keeps of the state and of what is in hand. -/
theorem Tracks.run {I : γ → σ → Prop} {j : Job σ α} (h : Tracks pre rel post own j)
    (before : ∀ own s, I own s → pre own s)
    (across : ∀ own own' s s', I own s → rel own own' s s' → I own' s') {s : σ}
    (start : I own s) : ∃ own', I own' (j.run s).2 ∧ post own' (j.run s).1 := by
  induction j generalizing own s with
  | done a => exact ⟨own, start, h⟩
  | step act next ih =>
      obtain ⟨own', changed, rest⟩ := h s (before own s start)
      exact ih _ rest (across own own' s _ start changed)
  | await ready next ih => exact ih h start
  | announce calls next ih => exact ih h start

end Tracks

/-! ## sequences -/

theorem bind_assoc {γ : Type} (j : Job σ α) (k : α → Job σ β) (l : β → Job σ γ) :
    j >>= k >>= l = j >>= fun a => k a >>= l := by
  induction j with
  | done a => rfl
  | step act next ih => exact congrArg (step act) (funext ih)
  | await ready next ih => exact congrArg (await ready) ih
  | announce calls next ih => exact congrArg (announce calls) ih

theorem bind_done (j : Job σ α) : j >>= done = j := by
  induction j with
  | done a => rfl
  | step act next ih => exact congrArg (step act) (funext ih)
  | await ready next ih => exact congrArg (await ready) ih
  | announce calls next ih => exact congrArg (announce calls) ih

instance : LawfulMonad (Job σ) :=
  LawfulMonad.mk' (Job σ) bind_done (fun _ _ => rfl) bind_assoc

/-! ## jobs that never wait -/

theorem Direct.pure {a : α} : (Pure.pure a : Job σ α).Direct := trivial

theorem Direct.bind {j : Job σ α} {k : α → Job σ β} (h : j.Direct) (hk : ∀ a, (k a).Direct) :
    (j >>= k).Direct := by
  induction j with
  | done a => exact hk a
  | step act next ih => exact fun b => ih b (h b)
  | await ready next ih => exact h.elim
  | announce calls next ih => exact ih h

theorem Direct.atomic {act : σ → α × σ} : (Job.atomic act).Direct := fun _ => trivial

theorem Direct.look {f : σ → α} : (Job.look f).Direct := fun _ => trivial

theorem Direct.change {f : σ → σ} : (Job.change f).Direct := fun _ => trivial

theorem Direct.tell {calls : List PrimitiveCall} : (Job.tell calls : Job σ Unit).Direct := trivial

theorem Direct.within {τ : Type} {get : τ → σ} {set : σ → τ → τ} {j : Job σ α} (h : j.Direct) :
    (j.within get set).Direct := by
  induction j with
  | done a => trivial
  | step act next ih => exact fun b => ih b (h b)
  | await ready next ih => exact h.elim
  | announce calls next ih => exact ih h

end Job

end HomCircuit
