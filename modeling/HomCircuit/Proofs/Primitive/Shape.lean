import HomCircuit.Primitive
import HomCircuit.Proofs.Except
import HomCircuit.Proofs.Job.Contract
import HomCircuit.Proofs.Key.Shape
import HomCircuit.Proofs.Partition.Bounds

/-!
# HomCircuit.Proofs.Primitive.Shape

Operations on ciphertexts of the right length give ciphertexts of the right length. The only thing
that can go wrong then is a table of another length than the moduli of its partition.

* `Primitive.run_eq_apply` — all checks before an operation pass;
* `Primitive.settles_run` — the operation gives a ciphertext of its partition, or refuses a table;
* `Primitive.length_of_run` — whatever it gives has the length of its partition.
-/

namespace HomCircuit.Primitive

/-! ## checks -/

/-- A table of a valid partition fits if its length is one of the moduli. -/
theorem tableFits_eq_false_iff {table : List UInt64} {q : Partition} (valid : q.Valid) :
    tableFits table q = false ↔
      table.length ≠ q.plaintextModulus.toNat ∧ table.length ≠ q.messageModulus.toNat := by
  have plaintexts := valid.plaintextModulus_pos
  have messages := valid.messageModulus_pos
  simp only [tableFits, Bool.and_eq_false_iff, Bool.or_eq_false_iff, decide_eq_false_iff_not]
  omega

theorem tableFits_iff {table : List UInt64} {q : Partition} (valid : q.Valid) :
    tableFits table q = true ↔
      table.length = q.plaintextModulus.toNat ∨ table.length = q.messageModulus.toNat := by
  rw [← Bool.not_eq_false, tableFits_eq_false_iff valid]
  omega

theorem tableFits_pos {table : List UInt64} {q : Partition} (fits : tableFits table q = true) :
    0 < table.length := by
  simp only [tableFits, Bool.and_eq_true, decide_eq_true_eq] at fits
  exact Nat.pos_of_ne_zero fits.1

/-- A table with entries has one for each message. -/
theorem getElem?_tableEntry {table : List UInt64} (some_ : 0 < table.length) (message : UInt64) :
    table[message.toNat % table.length]? = some (tableEntry table message) := by
  have inside := Nat.mod_lt message.toNat some_
  rw [tableEntry, List.getD_eq_getElem?_getD, List.getElem?_eq_getElem inside, Option.getD_some]

theorem checkShapes_eq_ok {expected : Nat} {inputs : List Ciphertext}
    (lengths : ∀ ct ∈ inputs, ct.length = expected) : checkShapes expected inputs = .ok () := by
  induction inputs with
  | nil => rfl
  | cons ct rest ih =>
      obtain ⟨length, others⟩ := List.forall_mem_cons.mp lengths
      simp [checkShapes, length, ih others]

/-- The keys that the inputs of an operation are under: for a change of partition those that are bound
for this purpose, and otherwise the node's own. -/
inductive Under (keys : OperationKeys) : Operation → KeySet → Prop
  | change {id : PartitionId} {source : KeySet} (bound : keys.input = some source) :
      Under keys (.changePartition id) source
  | own {op : Operation} (stays : ∀ id, op ≠ .changePartition id) : Under keys op keys.output

theorem sourceKeys_eq_ok_iff {op : Operation} {keys : OperationKeys} {source : KeySet} :
    sourceKeys op keys = .ok source ↔ Under keys op source := by
  constructor
  · intro found
    cases op with
    | changePartition id =>
        simp only [sourceKeys] at found
        split at found
        · next bound => exact Except.ok.inj found ▸ .change bound
        · contradiction
    | _ => exact Except.ok.inj found ▸ .own (by simp)
  · intro under
    cases under with
    | change bound => simp [sourceKeys, bound]
    | own stays =>
        cases op with
        | changePartition id => exact absurd rfl (stays id)
        | _ => rfl

/-- An operation on inputs of the right number and lengths is applied. -/
theorem run_eq_apply {op : Operation} {inputs : List Ciphertext} {keys : OperationKeys}
    {source : KeySet} (found : sourceKeys op keys = .ok source)
    (arity : inputs.length = op.arity)
    (lengths : ∀ ct ∈ inputs, ct.length = source.partition.ciphertextLength) (nonce : UInt64) :
    run op inputs keys nonce = apply op inputs keys.output source nonce := by
  simp [run, arity, found, checkShapes_eq_ok lengths, bind, Except.bind]

/-! ## results -/

@[simp] theorem length_mapBody (f : UInt64 → UInt64) (ct : Ciphertext) :
    (mapBody f ct).length = ct.length := by
  cases ct using List.reverseRec with
  | nil => rfl
  | append_singleton front body => simp [mapBody]

/-- The results of an operation on inputs of the right lengths. -/
theorem settles_run {op : Operation} {inputs : List Ciphertext} {keys : OperationKeys}
    {source : KeySet} {q from_ : Partition} (own : keys.output.IsOf q)
    (found : sourceKeys op keys = .ok source) (foreign : source.IsOf from_)
    (arity : inputs.length = op.arity)
    (lengths : ∀ ct ∈ inputs, ct.length = from_.ciphertextLength) (nonce : UInt64) :
    Settles (fun ct => ct.length = q.ciphertextLength)
      (fun err => ∃ table, op = .lookup table ∧ tableFits table q = false ∧
        err = .lookupTable table.length q.plaintextModulus)
      (run op inputs keys nonce) := by
  rw [run_eq_apply found arity (foreign.partition ▸ lengths) nonce]
  have same (linear : ∀ id, op ≠ .changePartition id) : from_ = q := by
    have : source = keys.output := by
      cases op with
      | changePartition id => exact absurd rfl (linear id)
      | _ => exact (Except.ok.inj found).symm
    rw [← foreign.partition, this, own.partition]
  cases op with
  | add =>
      obtain ⟨a, b, rfl⟩ := List.length_eq_two.mp arity
      have ha := lengths a (by simp)
      have hb := lengths b (by simp)
      simp [Settles, apply, ha, hb, same nofun]
  | sub =>
      obtain ⟨a, b, rfl⟩ := List.length_eq_two.mp arity
      have ha := lengths a (by simp)
      have hb := lengths b (by simp)
      simp [Settles, apply, ha, hb, same nofun]
  | neg =>
      obtain ⟨a, rfl⟩ := List.length_eq_one_iff.mp arity
      simp [Settles, apply, lengths a (by simp), same nofun]
  | addPlain constant =>
      obtain ⟨a, rfl⟩ := List.length_eq_one_iff.mp arity
      simp [Settles, apply, lengths a (by simp), same nofun]
  | mulPlain constant =>
      obtain ⟨a, rfl⟩ := List.length_eq_one_iff.mp arity
      simp [Settles, apply, lengths a (by simp), same nofun]
  | lookup table =>
      obtain ⟨a, rfl⟩ := List.length_eq_one_iff.mp arity
      have length : a.length = q.ciphertextLength := by rw [lengths a (by simp), same nofun]
      simp only [apply, List.getD_cons_zero, checkTable, own.partition]
      cases fits : tableFits table q with
      | false => exact ⟨table, rfl, fits, rfl⟩
      | true =>
          simp only [own.decrypt length]
          exact own.length_encrypt _ _
  | changePartition id =>
      obtain ⟨a, rfl⟩ := List.length_eq_one_iff.mp arity
      simp only [apply, List.getD_cons_zero, foreign.decrypt (lengths a (by simp))]
      exact own.length_encrypt _ _
  | identity =>
      obtain ⟨a, rfl⟩ := List.length_eq_one_iff.mp arity
      simp [Settles, apply, lengths a (by simp), same nofun]

theorem length_of_checkShapes {expected : Nat} {inputs : List Ciphertext} {u : Unit}
    (h : checkShapes expected inputs = .ok u) : ∀ ct ∈ inputs, ct.length = expected := by
  induction inputs with
  | nil => simp
  | cons ct rest ih =>
      simp only [checkShapes] at h
      split at h
      · contradiction
      · rename_i length
        exact List.forall_mem_cons.mpr ⟨not_not.mp length, ih h⟩

/-- An operation with a result has passed all its checks. -/
theorem checked_of_run {op : Operation} {inputs : List Ciphertext} {keys : OperationKeys}
    {nonce : UInt64} {ct : Ciphertext} (ran : run op inputs keys nonce = .ok ct) :
    inputs.length = op.arity ∧ ∃ source, sourceKeys op keys = .ok source ∧
      ∀ ct ∈ inputs, ct.length = source.partition.ciphertextLength := by
  unfold run at ran
  split at ran
  · contradiction
  · rename_i arity
    obtain ⟨source, found, ran⟩ := Except.exists_of_bind ran
    obtain ⟨_, checked, -⟩ := Except.exists_of_bind ran
    exact ⟨not_not.mp arity, source, found, length_of_checkShapes checked⟩

/-- Whatever the inputs of an operation, its result has the length of its partition. -/
theorem length_of_run {op : Operation} {inputs : List Ciphertext} {keys : OperationKeys}
    {source : KeySet} {q from_ : Partition} (own : keys.output.IsOf q)
    (found : sourceKeys op keys = .ok source) (foreign : source.IsOf from_) {nonce : UInt64}
    {ct : Ciphertext} (ran : run op inputs keys nonce = .ok ct) :
    ct.length = q.ciphertextLength := by
  obtain ⟨arity, source', found', lengths⟩ := checked_of_run ran
  obtain rfl := Except.ok.inj (found.symm.trans found')
  have settled := settles_run own found foreign arity (foreign.partition ▸ lengths) nonce
  rw [ran] at settled
  exact settled

/-- A lookup with a table that does not fit is refused, whatever its inputs. -/
theorem run_lookup_ne_ok {table : List UInt64} {inputs : List Ciphertext} {keys : OperationKeys}
    (misfit : tableFits table keys.output.partition = false) (nonce : UInt64) (ct : Ciphertext) :
    run (.lookup table) inputs keys nonce ≠ .ok ct := by
  intro ran
  unfold run at ran
  split at ran
  · contradiction
  · obtain ⟨source, _, ran⟩ := Except.exists_of_bind ran
    obtain ⟨_, _, ran⟩ := Except.exists_of_bind ran
    obtain ⟨_, checked, _⟩ := Except.exists_of_bind ran
    simp [checkTable, misfit] at checked

end HomCircuit.Primitive
