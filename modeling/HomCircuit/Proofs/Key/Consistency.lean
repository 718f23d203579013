import HomCircuit.Proofs.Key.Answers
import HomCircuit.Proofs.Key.Blob
import HomCircuit.Proofs.Key.Recency

/-!
# HomCircuit.Proofs.Key.Consistency

What a key manager holds is what it is found by, wherever it came from.

```
ready under id    KeyId.of keys.partition keys.seed = id
asked for         generated under the identity of the partition asked for
imported          read from a blob, under the identity of the partition in the blob
```

Key material of a collided fingerprint or of a forged blob may still answer for a partition of its
name. Where neither happens, whatever was imported or went in between, the keys of a partition and
a seed are the generated ones.

* `ManagerCall` — the calls, with those that read a file;
* `ManagerCall.Brings` — what a call may put into the cache;
* `KeyBlob.Exported` — blobs of managers that took no keys from elsewhere;
* `KeyCache.manage_consistent` — after any calls.
-/

namespace HomCircuit

/-! ## calls -/

/-- A call of a key manager, or one that imports a stored file. -/
inductive ManagerCall
  | plain (call : KeyCall)
  | importFile (d : BlobStore) (path : String)

namespace ManagerCall

/-- A call is made while no other is under way; of its answer only a refusal is kept. -/
def perform (c : KeyCache) : ManagerCall → Except KeyError Unit × KeyCache
  | .plain call => call.perform c
  | .importFile d path => ((c.importFile d path).1.map fun _ => (), (c.importFile d path).2)

/-- The blob that a call imports. -/
def blob? : ManagerCall → Option KeyBlob
  | .plain (.importBlob b) => some b
  | .plain _ => none
  | .importFile d path => (d.load path).toOption

/-- The partition whose keys a call asks for. -/
def partition? : ManagerCall → Option Partition
  | .plain (.request p _) => some p
  | .plain (.exportBlob p _) => some p
  | .plain _ => none
  | .importFile .. => none

/-- A partition that is asked for, or that a blob is of. -/
def InPlay (calls : List ManagerCall) (p : Partition) : Prop :=
  ∃ call ∈ calls, call.partition? = some p ∨ ∃ b, call.blob? = some b ∧ b.partition = p

end ManagerCall

/-- The cache after some calls, one after the other. -/
def KeyCache.manage (c : KeyCache) (calls : List ManagerCall) : KeyCache :=
  calls.foldl (fun c call => (call.perform c).2) c

/-- A call of a run asks for keys, and is answered with these. -/
def KeyCache.AnswersAt (c : KeyCache) (calls : List ManagerCall) (n : Nat) (p : Partition)
    (seed : KeySeed) (k : KeySet) : Prop :=
  calls[n]? = some (.plain (.request p seed)) ∧
    ∃ shared, ((c.manage (calls.take n)).getOrCreate p seed).1 = .ok shared ∧ shared.keys = k

/-- A blob that was exported by a manager all of whose keys were generated. -/
def KeyBlob.Exported (b : KeyBlob) : Prop :=
  ∃ capacity calls p seed, (∀ call ∈ calls, ManagerCall.blob? call = none) ∧
    (((KeyCache.empty capacity).manage calls).exportBlob p seed).1 = .ok b

/-! ## files -/

section Files

variable {c : KeyCache} {d : BlobStore} {path : String}

theorem KeyCache.importFile_of_error {cause : BlobError} (h : d.load path = .error cause) :
    c.importFile d path = (.error (.blob cause), c) := by
  simp only [importFile, h]

theorem KeyCache.importFile_of_ok {b : KeyBlob} (h : d.load path = .ok b) :
    c.importFile d path = c.importBlob b := by
  simp only [importFile, h]

theorem ManagerCall.blob?_importFile {b : KeyBlob} (h : d.load path = .ok b) :
    (importFile d path).blob? = some b := by
  simp [blob?, h, Except.toOption]

end Files

/-! ## refusals -/

section Refusals

variable {c : KeyCache} {p : Partition} {seed : KeySeed} {err : KeyError}

/-- A refusal is one still when the answer is left out. -/
theorem error_of_map {α β : Type} {f : α → β} {r : Except KeyError α} (h : r.map f = .error err) :
    r = .error err := by
  cases r with
  | error e => simpa [Except.map] using h
  | ok a => simp [Except.map] at h

theorem KeyCache.getOrCreate_of_error (h : (c.getOrCreate p seed).1 = .error err) :
    (c.getOrCreate p seed).2 = c := by
  simp only [getOrCreate, getOrCreate_error h]

theorem KeyCache.importBlob_of_error {b : KeyBlob} (h : (c.importBlob b).1 = .error err) :
    (c.importBlob b).2 = c := by
  unfold importBlob at h ⊢
  cases read : b.toKeySet with
  | error e => rfl
  | ok keys => simp [read] at h

/-- A call that is refused changes nothing. -/
theorem ManagerCall.perform_of_error {call : ManagerCall} (h : (call.perform c).1 = .error err) :
    (call.perform c).2 = c := by
  cases call with
  | plain call =>
      cases call with
      | request p seed => exact KeyCache.getOrCreate_of_error (error_of_map h)
      | exportBlob p seed =>
          simp only [perform, KeyCall.perform, KeyCache.exportBlob] at h ⊢
          exact KeyCache.getOrCreate_of_error (error_of_map (error_of_map h))
      | importBlob b => exact KeyCache.importBlob_of_error (error_of_map h)
      | evict name => simp [perform, KeyCall.perform] at h
      | clear => simp [perform, KeyCall.perform] at h
      | contains p seed => rfl
  | importFile d path =>
      have refused := error_of_map h
      change (c.importFile d path).2 = c
      cases read : d.load path with
      | error cause => rw [KeyCache.importFile_of_error read]
      | ok b =>
          rw [KeyCache.importFile_of_ok read] at refused ⊢
          exact KeyCache.importBlob_of_error refused

end Refusals

/-! ## what calls bring -/

/-- What a call may put into the cache satisfies `good`: keys that are generated, and keys that are
imported. -/
structure ManagerCall.Brings (good : KeyId → KeySet → Prop) (call : ManagerCall) : Prop where
  generated : ∀ p, call.partition? = some p → p.Valid → ∀ seed,
    good (KeyId.of p seed) (KeySet.ofSeed p seed)
  imported : ∀ b, call.blob? = some b → ∀ k, b.toKeySet = .ok k →
    good (KeyId.of k.partition k.seed) k

namespace KeyCache

variable {c : KeyCache} {good : KeyId → KeySet → Prop}

/-- What goes was good. -/
theorem Entries.retain (h : c.Entries good) (keep : KeyId → KeySlot → Bool) :
    (c.retain keep).2.Entries good :=
  h.mono fun _ member => List.mem_of_mem_filter member

theorem Entries.importBlob {b : KeyBlob} (h : c.Entries good)
    (imported : ∀ k, b.toKeySet = .ok k → good (KeyId.of k.partition k.seed) k) :
    (c.importBlob b).2.Entries good := by
  unfold KeyCache.importBlob
  cases read : b.toKeySet with
  | error e => exact h
  | ok keys =>
      exact Entries.insertReady (c := { c with nextSerial := c.nextSerial + 1 }) h (imported keys read)

/-- One call keeps good entries if what it brings is good. -/
theorem Entries.perform (h : c.Entries good) {call : ManagerCall} (brings : call.Brings good) :
    (call.perform c).2.Entries good := by
  cases call with
  | plain call =>
      cases call with
      | request p seed => exact (h.getOrCreate fun valid => brings.generated p rfl valid seed).2
      | exportBlob p seed => exact (h.getOrCreate fun valid => brings.generated p rfl valid seed).2
      | importBlob b => exact h.importBlob (brings.imported b rfl)
      | evict name => exact h.retain fun id s => id.name ≠ name || !s.isReady
      | clear => exact h.retain fun _ s => !s.isReady
      | contains p seed => exact h
  | importFile d path =>
      change (c.importFile d path).2.Entries good
      cases read : d.load path with
      | error cause =>
          rw [importFile_of_error read]
          exact h
      | ok b =>
          rw [importFile_of_ok read]
          exact h.importBlob (brings.imported b (ManagerCall.blob?_importFile read))

theorem Entries.manage (h : c.Entries good) {calls : List ManagerCall}
    (brings : ∀ call ∈ calls, call.Brings good) : (c.manage calls).Entries good := by
  induction calls generalizing c with
  | nil => exact h
  | cons call calls ih =>
      obtain ⟨first, others⟩ := List.forall_mem_cons.mp brings
      exact ih (h.perform first) others

end KeyCache

/-! ## identities -/

/-- Whatever a call brings comes under its own identity. -/
theorem ManagerCall.brings_own (call : ManagerCall) :
    call.Brings fun id k => KeyId.of k.partition k.seed = id where
  generated _ _ _ _ := rfl
  imported _ _ _ _ := rfl

/-- The ready entries of a cache stand under their own identities, whatever calls were made. -/
theorem KeyCache.entries_own (capacity : Nat) (calls : List ManagerCall) :
    ((empty capacity).manage calls).Entries fun id k => KeyId.of k.partition k.seed = id :=
  (entries_empty capacity).manage fun call _ => call.brings_own

/-! ## generated and exported keys -/

section Generated

variable {b : KeyBlob} {calls : List ManagerCall}

/-- Calls that import nothing bring generated keys. -/
theorem ManagerCall.brings_generated {call : ManagerCall} (h : call.blob? = none) :
    call.Brings (KeyId.Generates Partition.Valid) where
  generated p _ valid seed := ⟨p, seed, valid, rfl, rfl⟩
  imported b found := by simp [h] at found

/-- An exported blob is that of a generated key set. -/
theorem KeyBlob.Exported.eq_ofKeySet (h : b.Exported) :
    ∃ q seed, q.Valid ∧ b = ofKeySet (KeySet.ofSeed q seed) := by
  obtain ⟨capacity, calls, p, seed, none_, exported⟩ := h
  have entries : ((KeyCache.empty capacity).manage calls).Entries
      (KeyId.Generates Partition.Valid) :=
    (KeyCache.entries_empty capacity).manage fun call member =>
      call.brings_generated (none_ call member)
  have fresh (valid : p.Valid) :
      KeyId.Generates Partition.Valid (KeyId.of p seed) (KeySet.ofSeed p seed) :=
    ⟨p, seed, valid, rfl, rfl⟩
  have answers := (entries.getOrCreate fresh).1
  simp only [KeyCache.exportBlob] at exported
  cases answered : (((KeyCache.empty capacity).manage calls).getOrCreate p seed).1 with
  | error e => simp [answered, Except.map] at exported
  | ok shared =>
      obtain ⟨q, seed', valid, -, keys⟩ := answers shared answered
      rw [answered] at exported
      exact ⟨q, seed', valid, by rw [← keys, ← Except.ok.inj exported]⟩

/-- An exported blob makes the generated key set of the partition that it is of. -/
theorem KeyBlob.Exported.generates (h : b.Exported) {k : KeySet} (read : b.toKeySet = .ok k) :
    ∃ seed, k = KeySet.ofSeed b.partition seed := by
  obtain ⟨q, seed, valid, rfl⟩ := h.eq_ofKeySet
  have made := toKeySet_ofKeySet valid (KeySet.isOf_ofSeed q seed)
  exact ⟨seed, (Except.ok.inj (made.symm.trans read)).symm⟩

/-- Calls that import exported blobs bring generated keys of the partitions in play. -/
theorem ManagerCall.brings_inPlay (exported : ∀ call ∈ calls, ∀ b, call.blob? = some b → b.Exported)
    {call : ManagerCall} (member : call ∈ calls) :
    call.Brings (KeyId.Generates (InPlay calls)) where
  generated p asked _ seed := ⟨p, seed, ⟨call, member, .inl asked⟩, rfl, rfl⟩
  imported b found k read := by
    obtain ⟨seed, rfl⟩ := (exported call member b found).generates read
    exact ⟨b.partition, seed, ⟨call, member, .inr ⟨b, found, rfl⟩⟩, rfl, rfl⟩

/-- The keys of an answer are generated where partitions in play are told apart. -/
theorem KeyCache.AnswersAt.generate_eq {capacity n : Nat} {p : Partition} {seed : KeySeed}
    {k : KeySet} (h : (empty capacity).AnswersAt calls n p seed k)
    (exported : ∀ call ∈ calls, ∀ b, call.blob? = some b → b.Exported)
    (distinct : ∀ p q, ManagerCall.InPlay calls p → ManagerCall.InPlay calls q →
      p.name = q.name → p.fingerprint = q.fingerprint → p = q) :
    KeySet.generate p seed = .ok k := by
  obtain ⟨asks, shared, answered, rfl⟩ := h
  have inPlay : ManagerCall.InPlay calls p := ⟨_, List.mem_of_getElem? asks, .inl rfl⟩
  have entries : ((empty capacity).manage (calls.take n)).Entries
      (KeyId.Generates (ManagerCall.InPlay calls)) :=
    (entries_empty capacity).manage fun call member =>
      call.brings_inPlay exported (List.mem_of_mem_take member)
  have keys := ((entries.generates inPlay seed).1 shared answered).eq_ofSeed
    fun q known => distinct q p known inPlay
  have valid : p.validate = .ok () := by
    cases found : p.validate with
    | error e => simp [getOrCreate, found] at answered
    | ok u => rfl
  rw [keys, KeySet.generate, valid]

end Generated

/-! ## consistency -/

/-- After any calls, the key sets that are ready stand under their own identities, and a request is
answered with one of the name, the fingerprint and the seed asked for. Where imported blobs were
exported by managers without imports, and name and fingerprint tell the partitions in play, all
answers of a run for a partition and a seed are the generated key set. A call that is refused, at
whatever time, changes nothing. -/
theorem KeyCache.manage_consistent (capacity : Nat) (calls : List ManagerCall) :
    (∀ id shared used, (id, KeySlot.ready shared used) ∈ ((empty capacity).manage calls).slots →
      KeyId.of shared.keys.partition shared.keys.seed = id) ∧
    (∀ p seed shared, (((empty capacity).manage calls).getOrCreate p seed).1 = .ok shared →
      shared.keys.partition.name = p.name ∧
        shared.keys.partition.fingerprint = p.fingerprint ∧ shared.keys.seed = seed) ∧
    ((∀ call ∈ calls, ∀ b, call.blob? = some b → b.Exported) →
      (∀ p q, ManagerCall.InPlay calls p → ManagerCall.InPlay calls q →
        p.name = q.name → p.fingerprint = q.fingerprint → p = q) →
      ∀ p seed n k, (empty capacity).AnswersAt calls n p seed k →
        KeySet.generate p seed = .ok k ∧
          ∀ n' k', (empty capacity).AnswersAt calls n' p seed k' → k' = k) ∧
    ∀ (c : KeyCache) (call : ManagerCall) (err : KeyError),
      (call.perform c).1 = .error err → (call.perform c).2 = c := by
  have entries := entries_own capacity calls
  refine ⟨fun id shared used member => entries _ member shared used rfl,
    fun p seed shared answered => ?_, fun exported distinct p seed n k answer => ?_,
    fun c call err => ManagerCall.perform_of_error⟩
  · have own := (entries.getOrCreate fun _ => rfl).1 shared answered
    obtain ⟨name, fingerprint, seeds⟩ := KeyId.mk.inj own
    exact ⟨name, fingerprint, seeds⟩
  · have generated := answer.generate_eq exported distinct
    refine ⟨generated, fun n' k' answer' => ?_⟩
    exact Except.ok.inj ((answer'.generate_eq exported distinct).symm.trans generated)

/-- A generated key set that is exported, imported elsewhere, asked for there, dropped, and asked for
once more; and a partition without dimensions. -/
theorem KeyCache.manage_consistent_base :
    let k := KeySet.ofSeed Collision.base default
    let calls : List ManagerCall := [
      .plain (.importBlob (.ofKeySet k)), .plain (.request Collision.base default),
      .plain (.evict "P"), .plain (.request Collision.base default)]
    let flat : ManagerCall := .plain (.request { Collision.base with lweDim := 0 } default)
    ((∀ call ∈ calls, ∀ b, call.blob? = some b → b.Exported) ∧
      (∀ p q, ManagerCall.InPlay calls p → ManagerCall.InPlay calls q →
        p.name = q.name → p.fingerprint = q.fingerprint → p = q) ∧
      (empty 1).AnswersAt calls 1 Collision.base default k ∧
      (empty 1).AnswersAt calls 3 Collision.base default k ∧
      KeySet.generate Collision.base default = .ok k) ∧
    ∃ err, (flat.perform (empty 1)).1 = .error err ∧ (flat.perform (empty 1)).2 = empty 1 := by
  intro k calls flat
  have exported : (KeyBlob.ofKeySet k).Exported :=
    ⟨1, [], Collision.base, default, by simp, by decide +kernel⟩
  have blobs : ∀ call ∈ calls, ∀ b, call.blob? = some b → b = .ofKeySet k := by
    simp [calls, ManagerCall.blob?]
  have partitions : ∀ call ∈ calls, ∀ p, call.partition? = some p → p = Collision.base := by
    simp [calls, ManagerCall.partition?]
  have only : ∀ p, ManagerCall.InPlay calls p → p = Collision.base := by
    rintro p ⟨call, member, asked | ⟨b, found, rfl⟩⟩
    · exact partitions call member p asked
    · rw [blobs call member b found]
      rfl
  have imports : ∀ call ∈ calls, ∀ b, call.blob? = some b → b.Exported :=
    fun call member b found => blobs call member b found ▸ exported
  have distinct : ∀ p q, ManagerCall.InPlay calls p → ManagerCall.InPlay calls q →
      p.name = q.name → p.fingerprint = q.fingerprint → p = q :=
    fun p q hp hq _ _ => (only p hp).trans (only q hq).symm
  have first : (empty 1).AnswersAt calls 1 Collision.base default k :=
    ⟨rfl, ⟨0, k⟩, by decide +kernel, rfl⟩
  have last : (empty 1).AnswersAt calls 3 Collision.base default k :=
    ⟨rfl, ⟨1, k⟩, by decide +kernel, rfl⟩
  have consistent := (manage_consistent 1 calls).2.2
  refine ⟨⟨imports, distinct, first, last, ?_⟩, ?_⟩
  · exact (consistent.1 imports distinct _ _ 1 k first).1
  · have refused : (flat.perform (empty 1)).1 =
        .error (.invalidPartition "P" "lwe_dim must be positive") := by decide +kernel
    exact ⟨_, refused, consistent.2 _ flat _ refused⟩

end HomCircuit
