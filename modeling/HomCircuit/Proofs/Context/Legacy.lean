import HomCircuit.Proofs.Context.History
import HomCircuit.Proofs.Key.Answers
import HomCircuit.Proofs.Schedule.Upkeep

/-!
# HomCircuit.Proofs.Context.Legacy

What a history leaves to later calls.

```
cached keys      generated, for partitions that were asked for, under their identities
cancellations    of tokens that were issued
```

Entries may have been evicted and generated again at any time, and the epoch may have moved on.

* `Context.clean_of_reaches` — a context is clean in this sense whatever has happened to it;
* `Resources.Clean.answers` — its key manager hands out the generated keys of every partition whose
  identity is its own;
* `Context.isCancelled_begin` — a fresh token of it is not cancelled.
-/

namespace HomCircuit

/-! ## cancellations -/

/-- Only tokens that were issued have been raised, or are at hand. -/
structure Cancellation.Sane (s : Cancellation) : Prop where
  raised : ∀ k ∈ s.raised, k < s.issued
  handed : ∀ t ∈ s.handed, t.number < s.issued

namespace Cancellation.Sane

variable {s : Cancellation}

theorem empty : ({} : Cancellation).Sane := ⟨nofun, nofun⟩

theorem raise (h : s.Sane) {t : CancelToken} (known : t.number < s.issued) : (s.raise t).Sane :=
  ⟨List.forall_mem_cons.mpr ⟨known, h.raised⟩, h.handed⟩

theorem advance (h : s.Sane) : s.advance.Sane := ⟨h.raised, h.handed⟩

theorem handOver (h : s.Sane) {t : Option CancelToken} (known : ∀ x ∈ t, x.number < s.issued) :
    (s.handOver t).Sane := ⟨h.raised, known⟩

theorem issue (h : s.Sane) : s.issue.2.Sane where
  raised k mem := Nat.lt_succ_of_lt (h.raised k mem)
  handed t mem := Nat.lt_succ_of_lt (h.handed t mem)

theorem issueFree (h : s.Sane) : s.issueFree.2.Sane := ⟨h.issue.raised, h.issue.handed⟩

/-- Raising the token at hand issues none. -/
theorem raiseHanded (h : s.Sane) : s.raiseHanded.Sane ∧ s.raiseHanded.issued = s.issued := by
  unfold Cancellation.raiseHanded
  cases handed : s.handed with
  | none => exact ⟨h, rfl⟩
  | some t => exact ⟨h.raise (h.handed t handed), rfl⟩

/-- A fresh token is not cancelled. -/
theorem isCancelled_issue (h : s.Sane) : s.issue.2.isCancelled s.issue.1 = false := by
  have unseen : s.issued ∉ s.raised := fun mem => Nat.lt_irrefl _ (h.raised _ mem)
  simp [Cancellation.isCancelled, Cancellation.issue, unseen]

end Cancellation.Sane

/-! ## resources -/

/-- Cached keys were generated for partitions that were asked for, and only tokens that were issued have
been cancelled. -/
structure Resources.Clean (asked : Partition → Prop) (r : Resources) : Prop where
  keys : r.keys.Entries (KeyId.Generates asked)
  cancellation : r.cancellation.Sane

section Clean

variable {asked : Partition → Prop} {r : Resources}

/-- Signals of primitives cancel what was issued, and issue nothing. -/
theorem Resources.sane_signal (h : r.cancellation.Sane) (signals : List Signal) :
    (r.signal signals).cancellation.Sane ∧
      (r.signal signals).cancellation.issued = r.cancellation.issued := by
  refine List.foldlRecOn (motive := fun s : Cancellation => s.Sane ∧ s.issued = r.cancellation.issued)
    signals _ ⟨h, rfl⟩ fun s now signal _ => ?_
  cases signal with
  | cancelHanded =>
      obtain ⟨sane, same⟩ := now.1.raiseHanded
      exact ⟨sane, same.trans now.2⟩
  | cancelInFlight => exact ⟨now.1.advance, now.2⟩

/-- A call keeps its context clean. -/
theorem Environment.sustains_clean {e : Environment}
    (known : ∀ q ∈ e.partitions.partitions, asked q) (issued : Nat) :
    e.Sustains fun r => r.Clean asked ∧ r.cancellation.issued = issued where
  fetchKeys q mem r now :=
    ⟨⟨(now.1.keys.generates (known q mem) e.seed).2, now.1.cancellation⟩, now.2⟩
  announce c r now := by
    obtain ⟨sane, same⟩ := Resources.sane_signal
      (r := { r with calls := c :: r.calls }) now.1.cancellation (e.primitives.signals c.op)
    exact ⟨⟨now.1.keys, sane⟩, same.trans now.2⟩
  remotes _ _ _ _ _ _ now := ⟨⟨now.1.keys, now.1.cancellation⟩, now.2⟩
  inventory r _ _ now := ⟨⟨now.1.keys, now.1.cancellation⟩, now.2⟩

/-- So does what happens to it from outside. -/
theorem Resources.Clean.outside {issued : Nat} {o : Occurrence} (known : o.Known issued)
    (now : r.Clean asked ∧ r.cancellation.issued = issued) :
    (r.withCancellation o.cancels).Clean asked ∧
      (r.withCancellation o.cancels).cancellation.issued = issued := by
  obtain ⟨clean, rfl⟩ := now
  cases o with
  | move m =>
      cases m with
      | worker k => exact ⟨clean, rfl⟩
      | raise t => exact ⟨⟨clean.keys, clean.cancellation.raise known⟩, rfl⟩
      | cancelInFlight => exact ⟨⟨clean.keys, clean.cancellation.advance⟩, rfl⟩
  | switch i faulted => exact ⟨clean, rfl⟩

/-- Every partition whose identity no other partition shares that was asked for is answered with keys that
were generated for it. -/
theorem Resources.Clean.answers (clean : r.Clean asked) {registry : Registry} {seed : KeySeed}
    (distinct : registry.Distinct)
    (apart : ∀ q ∈ registry.partitions, ∀ q', asked q' → q'.name = q.name →
      q'.fingerprint = q.fingerprint → q' = q) :
    r.keys.Answers registry seed fun q k => k = KeySet.ofSeed q seed := by
  refine KeyCache.answers_of_holds distinct (fun _ _ _ => rfl) ?_
  intro entry mem shared used ready q known same
  exact KeyId.Generates.eq_ofSeed (apart q known) (same ▸ clean.keys entry mem shared used ready)

end Clean

/-! ## contexts -/

namespace Context

variable {asked : Partition → Prop} {c c' : Context}

/-- Whatever happens to a clean context, it stays clean. -/
theorem clean_step (clean : c.resources.Clean asked) (step : c.Step asked c') :
    c'.resources.Clean asked := by
  cases step with
  | issue => exact ⟨clean.keys, clean.cancellation.issue⟩
  | issueFree => exact ⟨clean.keys, clean.cancellation.issueFree⟩
  | handOver known => exact ⟨clean.keys, clean.cancellation.handOver known⟩
  | cancel known => exact ⟨clean.keys, clean.cancellation.raise known⟩
  | cancelInFlight => exact ⟨clean.keys, clean.cancellation.advance⟩
  | fetch known => exact ⟨(clean.keys.generates known _).2, clean.cancellation⟩
  | forget keep =>
      exact ⟨clean.keys.mono fun entry mem => List.mem_of_mem_filter mem, clean.cancellation⟩
  | register q => exact clean
  | switch i faulted => exact ⟨clean.keys, clean.cancellation⟩
  | call _ known _ ends =>
      exact (ends.sustains (Environment.sustains_clean known _)
        (fun _ allowed _ now => Resources.Clean.outside allowed now) ⟨clean, rfl⟩).1

/-- A context is clean whatever has happened to it. -/
theorem clean_of_reaches {o : ContextOptions} {ps : Primitives} {devices : List Device}
    {c₀ : Context} (fresh : start o ps devices = .done c₀) (history : c₀.Reaches asked c) :
    c.resources.Clean asked := by
  refine history.keeps (fun _ _ => clean_step) ?_
  obtain ⟨remotes, rfl⟩ := eq_of_start fresh
  exact ⟨KeyCache.entries_empty _, .empty⟩

/-- A call that begins with a fresh token is not cancelled. -/
theorem isCancelled_begin (clean : c.resources.Clean asked) :
    (c.begin none).2.isCancelled (c.begin none).1 = false :=
  (clean.cancellation.handOver (t := none) nofun).isCancelled_issue

end Context

end HomCircuit
