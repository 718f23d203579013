import HomCircuit.Proofs.Key.Slots
import HomCircuit.Proofs.Partition.Registration

/-!
# HomCircuit.Proofs.Key.Answers

What a key manager answers while the partitions of one registry are asked for.

A key set is found by the name and the fingerprint of its partition, so a cache may hold a key set of
other parameters under the identity of a partition whose fingerprint collides with theirs. Whether
it does shows in its ready entries, and requests do not make it worse.

* `KeyCache.Answers` — all answers, after any requests, satisfy a predicate;
* `KeyCache.Holds` — the ready entries satisfy it;
* `KeyCache.answers_of_holds` — the second implies the first, for a predicate that generated keys
  satisfy;
* `KeyCache.Entries` — the same of ready entries of whatever registry: where all were generated, so
  are all answers (`KeyCache.Entries.generates`).
-/

namespace HomCircuit

namespace KeyCache

/-- The cache after some partitions were asked for, one after the other. -/
def ask (c : KeyCache) (seed : KeySeed) (asked : List Partition) : KeyCache :=
  asked.foldl (fun c q => (c.getOrCreate q seed).2) c

/-- Whatever partitions of a registry have been asked for, what is answered for one of them
satisfies `good`. -/
def Answers (c : KeyCache) (registry : Registry) (seed : KeySeed) (good : Partition → KeySet → Prop) :
    Prop :=
  ∀ asked : List Partition, (∀ q ∈ asked, q ∈ registry.partitions) →
    ∀ p ∈ registry.partitions, ∀ shared,
      ((c.ask seed asked).getOrCreate p seed).1 = .ok shared → good p shared.keys

/-- The ready entries of the partitions of a registry satisfy `good`. -/
def Holds (c : KeyCache) (registry : Registry) (seed : KeySeed) (good : Partition → KeySet → Prop) :
    Prop :=
  ∀ entry ∈ c.slots, ∀ shared used, entry.2 = .ready shared used →
    ∀ p ∈ registry.partitions, entry.1 = KeyId.of p seed → good p shared.keys

variable {c : KeyCache} {registry : Registry} {seed : KeySeed} {good : Partition → KeySet → Prop}
  {p : Partition}

/-! ## requests -/

/-- The next answer, and all that follow it. -/
theorem Answers.getOrCreate (h : c.Answers registry seed good) (known : p ∈ registry.partitions) :
    (∀ shared, (c.getOrCreate p seed).1 = .ok shared → good p shared.keys) ∧
      (c.getOrCreate p seed).2.Answers registry seed good := by
  refine ⟨h [] (by simp) p known, fun asked all q => ?_⟩
  exact h (p :: asked) (List.forall_mem_cons.mpr ⟨known, all⟩) q

/-- A request is refused exactly for a partition that is not valid. -/
theorem getOrCreate_error {err : KeyError} (h : (c.getOrCreate p seed).1 = .error err) :
    p.validate = .error err := by
  unfold KeyCache.getOrCreate at h
  cases valid : p.validate with
  | error e => simpa [valid] using h
  | ok u =>
      have generated : KeySet.generate p seed = .ok (KeySet.ofSeed p seed) := by
        simp [KeySet.generate, valid]
      simp only [valid, generated] at h
      split at h
      · simp at h
      · simp [Except.map] at h
      · simp [settle] at h

/-! ## ready entries -/

/-- The ready entries satisfy `good`, with what they are found by. -/
def Entries (c : KeyCache) (good : KeyId → KeySet → Prop) : Prop :=
  ∀ entry ∈ c.slots, ∀ shared used, entry.2 = .ready shared used → good entry.1 shared.keys

theorem mem_shrink {entry : KeyId × KeySlot} {fuel : Nat} (h : entry ∈ (shrink fuel c).slots) :
    entry ∈ c.slots := by
  induction fuel generalizing c with
  | zero => exact h
  | succ fuel ih =>
      simp only [shrink] at h
      split at h
      · exact h
      · split at h
        · exact h
        · have := ih h
          simp only [count, erase] at this
          exact List.mem_of_mem_filter this

section Entries

variable {fits : KeyId → KeySet → Prop} {id : KeyId} {shared : SharedKeys}

/-- A cache with no other entries satisfies what the first one satisfied. -/
theorem Entries.mono {c' : KeyCache} (h : c.Entries fits)
    (sub : ∀ entry ∈ c'.slots, entry ∈ c.slots) : c'.Entries fits :=
  fun entry mem => h entry (sub entry mem)

/-- A good key set may be put in place. -/
theorem Entries.put {s : KeySlot} (h : c.Entries fits)
    (new : ∀ shared used, s = .ready shared used → fits id shared.keys) :
    (c.put id s).Entries fits := by
  intro entry mem
  rcases List.mem_cons.mp mem with rfl | old
  · exact new
  · exact h entry (List.mem_of_mem_filter old)

theorem Entries.insertReady (h : c.Entries fits) (new : fits id shared.keys) :
    (c.insertReady id shared).Entries fits := by
  refine Entries.mono (c := c.tick.put id (.ready shared c.tick.clock)) ?_ fun entry => mem_shrink
  refine Entries.put (c := c.tick) h fun shared' used same => ?_
  obtain ⟨rfl, -⟩ := KeySlot.ready.inj same
  exact new

/-- A request is answered from the ready entries or with generated keys, and keeps good entries. -/
theorem Entries.getOrCreate (h : c.Entries fits)
    (fresh : p.Valid → fits (KeyId.of p seed) (KeySet.ofSeed p seed)) :
    (∀ shared, (c.getOrCreate p seed).1 = .ok shared → fits (KeyId.of p seed) shared.keys) ∧
      (c.getOrCreate p seed).2.Entries fits := by
  unfold KeyCache.getOrCreate
  cases valid : p.validate with
  | error e => exact ⟨by simp, h⟩
  | ok u =>
      have own := fresh (Partition.validate_eq_ok_iff.mp valid)
      have generated : KeySet.generate p seed = .ok (KeySet.ofSeed p seed) := by
        simp [KeySet.generate, valid]
      simp only [generated, lookup]
      cases found : c.tick.slot? (KeyId.of p seed) with
      | none =>
          refine ⟨fun shared answered => ?_, Entries.insertReady ?_ own⟩
          · obtain rfl := Except.ok.inj answered
            exact own
          · exact Entries.put (c := { c.tick with nextSerial := c.tick.nextSerial + 1 }) h
              fun _ _ => KeySlot.noConfusion
      | some s =>
          cases s with
          | inFlight flight =>
              refine ⟨fun shared answered => ?_, h⟩
              obtain rfl := Except.ok.inj answered
              exact own
          | ready shared used =>
              have entry := h _ (mem_of_slot? (c := c.tick) found) shared used rfl
              refine ⟨fun shared' answered => ?_, ?_⟩
              · obtain rfl := Except.ok.inj answered
                exact entry
              · refine Entries.put (c := c.tick) h fun shared' used' new => ?_
                obtain ⟨rfl, -⟩ := KeySlot.ready.inj new
                exact entry

end Entries

/-- The same for the partitions of a registry. -/
theorem Holds.getOrCreate (distinct : registry.Distinct)
    (fresh : ∀ p ∈ registry.partitions, p.Valid → good p (KeySet.ofSeed p seed))
    (h : c.Holds registry seed good) (known : p ∈ registry.partitions) :
    (∀ shared, (c.getOrCreate p seed).1 = .ok shared → good p shared.keys) ∧
      (c.getOrCreate p seed).2.Holds registry seed good := by
  have entries : c.Entries fun id k => ∀ q ∈ registry.partitions, id = KeyId.of q seed → good q k :=
    h
  obtain ⟨answers, kept⟩ := entries.getOrCreate (p := p) fun valid q hq id => by
    rw [distinct q hq p known (KeyId.mk.inj id).1.symm]
    exact fresh p known valid
  exact ⟨fun shared answered => answers shared answered p known rfl, kept⟩

/-- What the ready entries of a registry satisfy, all its answers satisfy, if generated keys do. -/
theorem answers_of_holds (distinct : registry.Distinct)
    (fresh : ∀ p ∈ registry.partitions, p.Valid → good p (KeySet.ofSeed p seed))
    (h : c.Holds registry seed good) : c.Answers registry seed good := by
  intro asked all
  induction asked generalizing c with
  | nil => exact fun p known => (h.getOrCreate distinct fresh known).1
  | cons q rest ih =>
      obtain ⟨known, others⟩ := List.forall_mem_cons.mp all
      exact ih (h.getOrCreate distinct fresh known).2 others

/-- An empty cache has nothing that could be wrong. -/
theorem entries_empty {fits : KeyId → KeySet → Prop} (capacity : Nat) :
    (KeyCache.empty capacity).Entries fits := by
  intro entry mem
  simp [KeyCache.empty] at mem

theorem holds_empty (capacity : Nat) : (KeyCache.empty capacity).Holds registry seed good :=
  @entries_empty (fun id k => ∀ p ∈ registry.partitions, id = KeyId.of p seed → good p k) capacity

end KeyCache

/-! ## generated key sets -/

/-- A key set is generated for one of some partitions, under whose identity it stands. -/
def KeyId.Generates (asked : Partition → Prop) (id : KeyId) (k : KeySet) : Prop :=
  ∃ q seed, asked q ∧ id = KeyId.of q seed ∧ k = KeySet.ofSeed q seed

section Generates

variable {asked : Partition → Prop} {p : Partition} {seed : KeySeed}

/-- Where partitions have identities of their own, it is the key set of the very partition. -/
theorem KeyId.Generates.eq_ofSeed {k : KeySet}
    (distinct : ∀ q, asked q → q.name = p.name → q.fingerprint = p.fingerprint → q = p)
    (h : (KeyId.of p seed).Generates asked k) : k = KeySet.ofSeed p seed := by
  obtain ⟨q, seed', known, same, rfl⟩ := h
  obtain ⟨name, fingerprint, rfl⟩ := KeyId.mk.inj same
  rw [distinct q known name.symm fingerprint.symm]

/-- Where all ready entries were generated for partitions that were asked for, so are all answers. -/
theorem KeyCache.Entries.generates {c : KeyCache} (h : c.Entries (KeyId.Generates asked))
    (known : asked p) (seed : KeySeed) :
    (∀ shared, (c.getOrCreate p seed).1 = .ok shared →
      (KeyId.of p seed).Generates asked shared.keys) ∧
      (c.getOrCreate p seed).2.Entries (KeyId.Generates asked) :=
  h.getOrCreate fun _ => ⟨p, seed, known, rfl, rfl⟩

end Generates

end HomCircuit
