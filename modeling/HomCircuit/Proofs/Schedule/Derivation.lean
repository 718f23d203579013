import HomCircuit.Proofs.Schedule.Evaluation
import HomCircuit.Proofs.Schedule.Shadows

/-!
# HomCircuit.Proofs.Schedule.Derivation

What a call on devices may come to, and what a program means.

```
argument   ↦   the words that it is bound to          ↦   the message that they decrypt to
output     ↦   the operation on what the inputs        ↦   the operation on their messages
               derive, under a nonce of some of them
```

The nonce of a node on a device is made of the inputs that were on the host at the time, so that a value
may derive several ciphertexts. They differ in mask and noise; whether there is any, and how long it is,
does not depend on the nonce.

* `Graph.Derives` — the ciphertexts that the values of a graph may have;
* `Graph.Delivers` — what is known of the ciphertext in a slot, even where devices share a number;
* `Graph.Means` — the messages that they stand for; every value that evaluates means one
  (`Graph.Evaluates.means`).
-/

namespace HomCircuit

/-- A ciphertext that a node makes of some words, under a nonce of the words that were seen. -/
inductive Node.Makes (e : Environment) (ring : Partition → KeySet) (n : Node)
    (words seen : List Ciphertext) (ct : Ciphertext) : Prop
  | ran {q : Partition} {source : Option Partition} (known : e.partition n.partition = .ok q)
      (found : sourcePartition e n = .ok source)
      (made : Primitive.run n.op words ⟨ring q, source.map ring⟩ (nodeNonce n.id seen) = .ok ct)

/-- The ciphertexts that the values of a graph may have, under the keys of a ring. -/
def Graph.Derives (g : Graph) (e : Environment) (supplied : List (ValueId × Value))
    (ring : Partition → KeySet) : ValueId → Ciphertext → Prop :=
  g.Denotes (Run.BindsTo e supplied) fun n words ct =>
    ∃ seen, seen.Sublist words ∧ n.Makes e ring words seen ct

/-- The messages of the values of a graph: arguments mean what they decrypt to, and nodes work on
messages as they do on stand-ins. -/
def Graph.Means (g : Graph) (e : Environment) (supplied : List (ValueId × Value))
    (ring : Partition → KeySet) : ValueId → UInt64 → Prop :=
  g.Denotes
    (fun v partition m => ∃ q ct, e.partition partition = .ok q ∧
      Run.BindsTo e supplied v partition ct ∧ (ring q).decrypt ct = .ok m)
    fun n ms m => ∃ s, n.simulate e (ms.map (⟨·, 0⟩)) = .ok s ∧ s.shadow = m

/-- What is known of the ciphertext in a slot: its length, that its node has no table that does not
fit, and, where nothing was mistaken, how it was made. -/
structure Graph.Delivers (g : Graph) (e : Environment) (supplied : List (ValueId × Value))
    (ring : Partition → KeySet) (sure : Prop) (slot : Nat) (ct : Ciphertext) : Prop where
  shaped : e.Shaped g slot ct
  fits : ∀ i < g.size, slot = g.outputSlot i → ¬(g.node i).HasMisfit e
  derived : sure → g.Derives e supplied ring (g.valueAt slot) ct

section Node

variable {e : Environment} {ring : Partition → KeySet} {n : Node} {words seen : List Ciphertext}
  {ct : Ciphertext}

/-- What a node computes on the processor, it makes under the nonce of all its inputs. -/
theorem Node.Computes.makes (h : n.Computes e (fun q k => k = ring q) words (.ok ct)) :
    n.Makes e ring words words ct := by
  generalize result : Except.ok ct = r at h
  cases h with
  | ran known found own other =>
      rw [own, eq_map_of_rel other] at result
      exact .ran known found (Except.eq_ok_of_mapError result.symm)
  | _ => contradiction

/-- Whatever a node makes has the length of its partition. -/
theorem Node.Makes.length {q from_ : Partition}
    (isOf : ∀ q ∈ e.partitions.partitions, (ring q).IsOf q) (known : e.partition n.partition = .ok q)
    (foreign : e.partition n.inputPartition = .ok from_) (h : n.Makes e ring words seen ct) :
    ct.length = q.ciphertextLength := by
  cases h with
  | @ran q' source known' found made =>
      obtain rfl := Except.ok.inj (known.symm.trans known')
      have own := isOf q (Environment.mem_of_partition known)
      have other : Option.Rel (fun q (k : KeySet) => k.IsOf q) source (source.map ring) := by
        cases source with
        | none => exact .none
        | some q => exact .some (isOf q (mem_of_sourcePartition found))
      obtain ⟨k, keys, isOf'⟩ := sourceKeys_of_rel known foreign found own other
      exact Primitive.length_of_run own keys isOf' made

/-- Nothing is made with a table that does not fit. -/
theorem Node.HasMisfit.not_makes (misfit : n.HasMisfit e)
    (isOf : ∀ q ∈ e.partitions.partitions, (ring q).IsOf q) : ¬n.Makes e ring words seen ct := by
  intro makes
  obtain ⟨table, q, op, known, misfit⟩ := misfit
  cases makes with
  | ran known' found made =>
      obtain rfl := Except.ok.inj (known.symm.trans known')
      have partition := (isOf q (Environment.mem_of_partition known)).partition
      rw [op] at made
      exact Primitive.run_lookup_ne_ok (by rw [partition, misfit]) _ _ made

end Node

/-! ## arguments -/

/-- On the processor and on devices values are represented in the same way. -/
theorem Run.representation_accelerator (v : ValueId) (q : Partition) (x : Value) :
    Run.representation .accelerator v q x = Run.representation .cpu v q x := by
  cases x <;> rfl

theorem Run.argument_accelerator {e : Environment} (accelerator : e.mode = .accelerator)
    (supplied : List (ValueId × Value)) (v : ValueId) (partition : PartitionId) :
    Run.argument e supplied v partition =
      Run.argument { e with mode := .cpu } supplied v partition := by
  unfold Run.argument
  simp only [accelerator, representation_accelerator, Environment.partition]

section Graph

variable {e : Environment} {g : Graph} {supplied : List (ValueId × Value)}
  {ring : Partition → KeySet} {sure : Prop} {i : Nat} {words : List Ciphertext}

/-! ## what stands in the slots -/

/-- Arguments are delivered as they are bound. -/
theorem Graph.Wired.delivers_argument (w : g.Wired) (host : e.mode = .cpu ∨ e.mode = .accelerator)
    {k : Nat} {a : ValueId × PartitionId} {b : Buffer} (found : g.arguments[k]? = some a)
    (bound : Run.argument e supplied a.1 a.2 = .ok b) :
    ∃ ct, b.payload = .host (.ciphertext ct) ∧ g.Delivers e supplied ring sure k ct := by
  obtain ⟨q, ct, known, rfl, length⟩ : ∃ q ct, e.partition a.2 = .ok q ∧
      b = .ofHost a.1 a.2 (.ciphertext ct) ∧ ct.length = q.ciphertextLength := by
    rcases host with processor | accelerator
    · exact Run.argument_processor processor bound
    · rw [Run.argument_accelerator accelerator] at bound
      exact Run.argument_processor (e := { e with mode := .cpu }) rfl bound
  have inside := (Array.getElem?_eq_some_iff.mp found).1
  refine ⟨ct, rfl, ⟨q, by rw [Graph.slotPartition_argument found, known], length⟩, ?_, fun _ => ?_⟩
  · rintro i - rfl
    simp only [Graph.outputSlot] at inside
    omega
  · rw [w.valueAt_argument k a found]
    exact .argument (Array.mem_of_getElem? found) bound

/-- A node that makes a ciphertext of what it was handed delivers it; where nothing was mistaken, this
was what its inputs delivered. -/
theorem Environment.Covers.delivers (covers : e.Covers g) (w : g.Wired)
    (isOf : ∀ q ∈ e.partitions.partitions, (ring q).IsOf q) (inside : i < g.size)
    (read : List.Forall₂ (g.Delivers e supplied ring sure) (g.inputsOf i) words)
    {given seen : List Ciphertext} {ct : Ciphertext} (same : sure → given = words)
    (part : seen.Sublist words) (made : (g.node i).Makes e ring given seen ct) :
    g.Delivers e supplied ring sure (g.outputSlot i) ct := by
  obtain ⟨q, known⟩ := covers.partition i inside
  obtain ⟨from_, foreign⟩ := covers.inputPartition i inside
  refine ⟨⟨q, ?_, made.length isOf known foreign⟩, fun j _ slot misfit => ?_, fun certain => ?_⟩
  · rw [Graph.slotPartition_outputSlot inside, known]
  · obtain rfl : i = j := by
      simp only [Graph.outputSlot] at slot
      omega
    exact misfit.not_makes isOf made
  · obtain rfl := same certain
    refine w.denotes_output inside (read.imp fun slot ct delivers => delivers.derived certain) ?_
    exact ⟨seen, part, made⟩

/-- A node on the processor delivers what it computes, or its table does not fit. -/
theorem Environment.Covers.delivers_computed (covers : e.Covers g) (w : g.Wired)
    (isOf : ∀ q ∈ e.partitions.partitions, (ring q).IsOf q) (inside : i < g.size)
    (read : List.Forall₂ (g.Delivers e supplied ring sure) (g.inputsOf i) words)
    {result : Except RunError Ciphertext}
    (computed : (g.node i).Computes e (fun q k => k = ring q) words result) :
    Settles (g.Delivers e supplied ring sure (g.outputSlot i)) ((g.node i).Misfits e) result := by
  cases result with
  | ok ct => exact covers.delivers w isOf inside read (fun _ => rfl) (.refl _) computed.makes
  | error err =>
      have shaped := read.imp fun slot ct (delivers : g.Delivers e supplied ring sure slot ct) =>
        delivers.shaped
      exact covers.settles w inside shaped (computed.mono fun q mem k same => same ▸ isOf q mem)

/-- What a graph derives depends on the partitions and the mode alone. -/
theorem Graph.Derives.congr {e' : Environment} (partitions : e'.partitions = e.partitions)
    (mode : e'.mode = e.mode) {v : ValueId} {ct : Ciphertext} (h : g.Derives e supplied ring v ct) :
    g.Derives e' supplied ring v ct := by
  have known (id : PartitionId) : e'.partition id = e.partition id := by
    simp only [Environment.partition, partitions]
  have source (n : Node) : sourcePartition e' n = sourcePartition e n := by
    simp only [sourcePartition, known]
  refine Denotes.mono (fun v partition ct bound => ?_) ?_ h
  · simpa only [Run.BindsTo, Run.argument, known, mode] using bound
  · rintro n words ct ⟨seen, part, ⟨found, from_, made⟩⟩
    exact ⟨seen, part, .ran ((known _).trans found) ((source n).trans from_) made⟩

/-! ## messages -/

/-- A value means one message at most. -/
theorem Graph.Means.unique (w : g.Wired) {v : ValueId} {m m' : UInt64}
    (h : g.Means e supplied ring v m) (h' : g.Means e supplied ring v m') : m = m' := by
  refine Denotes.unique w ?_ ?_ h h'
  · rintro v partition m m' ⟨q, ct, known, bound, decrypted⟩ ⟨q', ct', known', bound', decrypted'⟩
    obtain rfl := Except.ok.inj (known.symm.trans known')
    obtain rfl : ct = ct' := by simpa [Buffer.ofHost] using Except.ok.inj (bound.symm.trans bound')
    exact Except.ok.inj (decrypted.symm.trans decrypted')
  · rintro n ms m m' ⟨s, made, rfl⟩ ⟨s', made', rfl⟩
    rw [Except.ok.inj (made.symm.trans made')]

/-- A message of a slot is below the plaintext modulus of its partition. -/
def Graph.Tells (g : Graph) (e : Environment) (supplied : List (ValueId × Value))
    (ring : Partition → KeySet) (slot : Nat) (m : UInt64) : Prop :=
  g.Means e supplied ring (g.valueAt slot) m ∧
    ∃ q, e.partition (g.slotPartition slot) = .ok q ∧ m < q.plaintextModulus

/-- A node without a table that does not fit makes a message of the messages of its inputs. -/
theorem Environment.Covers.tells (covers : e.Covers g) (w : g.Wired) (inside : i < g.size)
    {ms : List UInt64} (read : List.Forall₂ (g.Tells e supplied ring) (g.inputsOf i) ms)
    (fits : ¬(g.node i).HasMisfit e) : ∃ m, g.Tells e supplied ring (g.outputSlot i) m := by
  have bounded : List.Forall₂ (e.Bounded g) (g.inputsOf i) (ms.map (⟨·, 0⟩)) :=
    List.forall₂_map_right_iff.mpr (read.imp fun slot m tells => tells.2)
  have settled := covers.settles_simulate w inside bounded
  cases made : (g.node i).simulate e (ms.map (⟨·, 0⟩)) with
  | error err =>
      rw [made] at settled
      exact absurd settled fits
  | ok s =>
      rw [made] at settled
      refine ⟨s.shadow, w.denotes_output inside (read.imp fun slot m tells => tells.1) ?_, settled⟩
      exact ⟨s, made, rfl⟩

/-- A value that evaluates means a message. -/
theorem Graph.Evaluates.means (covers : e.Covers g) (w : g.Wired) (processor : e.mode = .cpu)
    (isOf : ∀ q ∈ e.partitions.partitions, (ring q).IsOf q) {v : ValueId} {ct : Ciphertext}
    (h : g.Evaluates e supplied ring v ct) :
    ∀ slot, g.slot? v = some slot → ∃ m, g.Tells e supplied ring slot m := by
  let fits (slot : Nat) (_ : Ciphertext) : Prop := ∃ m, g.Tells e supplied ring slot m
  change ∀ slot, g.slot? v = some slot → fits slot ct
  refine Denotes.fits w ?_ ?_ h
  · intro k a ct found bound
    obtain ⟨q, ct', known, same, length⟩ := Run.argument_processor processor bound
    obtain rfl : ct = ct' := by simpa [Buffer.ofHost] using same
    have member := Environment.mem_of_partition known
    have valid := covers.valid q member
    have decrypted := (isOf q member).decrypt length
    generalize message_eq : (ring q).decode _ = message at decrypted
    refine ⟨message, ?_, q, by rw [slotPartition_argument found, known], ?_⟩
    · rw [w.valueAt_argument k a found]
      exact .argument (Array.mem_of_getElem? found) ⟨q, ct, known, bound, decrypted⟩
    · rw [← message_eq, KeySet.decode, (isOf q member).partition]
      exact Simulation.mod_lt valid.plaintextModulus_ne_zero
  · intro i inside words ct read computed
    have misfit : ¬(g.node i).HasMisfit e := fun misfit => misfit.not_makes isOf computed.makes
    have each := ((List.forall₂_and_left (R := fun _ _ => True) _ _).mp
      (read.imp fun slot _ told => ⟨told, trivial⟩)).1
    choose! message told using each
    exact covers.tells w inside
      (List.forall₂_map_right_iff.mpr (List.forall₂_same.mpr told)) misfit

end Graph

end HomCircuit
