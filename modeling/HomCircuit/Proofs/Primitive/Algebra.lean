import HomCircuit.Proofs.Key.Blob
import HomCircuit.Proofs.Primitive.Strict

/-!
# HomCircuit.Proofs.Primitive.Algebra

Which operations have a result, and what the result is.

```
phase (add a b)        =  phase a + phase b
phase (sub a b)        =  phase a - phase b
phase (neg a)          =  - phase a
phase (addPlain c a)   =  phase a + encode c
phase (mulPlain c a)   =  c * phase a
lookup t a             =  encrypt (t[decrypt a mod length of t])
changePartition a      =  encrypt (decrypt a)                        with the keys of either side
identity a             =  a
```

All sums and products are modulo `2^64`, and nothing is said of noise: the equations hold of every word
list of the right length, fresh or not.

* `Primitive.Accepts` — what an operation has to be given;
* `Primitive.Realizes` — what it makes of it;
* `Primitive.reference_algebra` — it has a result exactly if it accepts, namely what it realizes.
-/

namespace HomCircuit.Primitive

/-- What an operation has to be given: as many inputs as it takes, the keys that a change of partition
starts from, inputs of the length of their partition, and a table with an entry for each plaintext or for
each message. -/
structure Accepts (keys : OperationKeys) (op : Operation) (inputs : List Ciphertext) : Prop where
  arity : inputs.length = op.arity
  bound : ∀ id, op = .changePartition id → keys.input.isSome
  lengths : ∀ source, Under keys op source →
    ∀ ct ∈ inputs, ct.length = source.partition.ciphertextLength
  fits : ∀ table, op = .lookup table →
    table.length = keys.output.partition.plaintextModulus.toNat ∨
      table.length = keys.output.partition.messageModulus.toNat

/-- What an operation makes: a ciphertext with the phase that the arithmetic gives, a fresh encryption
under the nonce, or its input. -/
inductive Realizes (keys : OperationKeys) (nonce : UInt64) :
    Operation → List Ciphertext → Ciphertext → Prop
  | add {a b ct x y} (left : keys.output.phase a = .ok x) (right : keys.output.phase b = .ok y)
      (made : keys.output.phase ct = .ok (x + y)) : Realizes keys nonce .add [a, b] ct
  | sub {a b ct x y} (left : keys.output.phase a = .ok x) (right : keys.output.phase b = .ok y)
      (made : keys.output.phase ct = .ok (x - y)) : Realizes keys nonce .sub [a, b] ct
  | neg {a ct x} (given : keys.output.phase a = .ok x) (made : keys.output.phase ct = .ok (-x)) :
      Realizes keys nonce .neg [a] ct
  | addPlain {constant a ct x} (given : keys.output.phase a = .ok x)
      (made : keys.output.phase ct = .ok (x + keys.output.encode constant)) :
      Realizes keys nonce (.addPlain constant) [a] ct
  | mulPlain {constant a ct x} (given : keys.output.phase a = .ok x)
      (made : keys.output.phase ct = .ok (constant * x)) :
      Realizes keys nonce (.mulPlain constant) [a] ct
  | lookup {table a message entry} (found : keys.output.decrypt a = .ok message)
      (there : table[message.toNat % table.length]? = some entry) :
      Realizes keys nonce (.lookup table) [a]
        (keys.output.encrypt (entry % keys.output.partition.plaintextModulus) nonce)
  | changePartition {id source a message} (bound : keys.input = some source)
      (found : source.decrypt a = .ok message) :
      Realizes keys nonce (.changePartition id) [a]
        (keys.output.encrypt (message % keys.output.partition.plaintextModulus) nonce)
  | identity {a} : Realizes keys nonce .identity [a] a

variable {p : Partition} {keys : OperationKeys} {source source' : KeySet} {op : Operation}
  {inputs : List Ciphertext} {nonce : UInt64}

theorem Under.unique (h : Under keys op source) (h' : Under keys op source') : source = source' :=
  Except.ok.inj ((sourceKeys_eq_ok_iff.mpr h).symm.trans (sourceKeys_eq_ok_iff.mpr h'))

/-- The keys of the inputs are at hand. -/
theorem Accepts.exists_under (accepts : Accepts keys op inputs) : ∃ source, Under keys op source := by
  cases op with
  | changePartition id =>
      obtain ⟨source, bound⟩ := Option.isSome_iff_exists.mp (accepts.bound id rfl)
      exact ⟨source, .change bound⟩
  | _ => exact ⟨keys.output, .own (by simp)⟩

/-- An operation with a result was given what it needs. -/
theorem accepts_of_run (valid : keys.output.partition.Valid) {ct : Ciphertext}
    (ran : run op inputs keys nonce = .ok ct) : Accepts keys op inputs := by
  obtain ⟨arity, source, found, lengths⟩ := checked_of_run ran
  have under := sourceKeys_eq_ok_iff.mp found
  constructor
  case arity => exact arity
  case bound =>
    intro id same
    cases under with
    | change bound => exact Option.isSome_iff_exists.mpr ⟨source, bound⟩
    | own stays => exact absurd same (stays id)
  case lengths =>
    intro source' under'
    rwa [under'.unique under]
  case fits =>
    intro table same
    subst same
    by_contra misfit
    have unfit := (tableFits_eq_false_iff valid).mpr (not_or.mp misfit)
    exact run_lookup_ne_ok unfit nonce ct ran

theorem apply_lookup {output : KeySet} {table : List UInt64} {a : Ciphertext} {message : UInt64}
    (fits : tableFits table output.partition = true) (found : output.decrypt a = .ok message) :
    apply (.lookup table) [a] output source nonce =
      .ok (output.encrypt (tableEntry table message % output.partition.plaintextModulus) nonce) := by
  simp [apply, checkTable, fits, found, Except.mapError, bind, Except.bind]

theorem apply_changePartition {output : KeySet} {id : PartitionId} {a : Ciphertext} {message : UInt64}
    (found : source.decrypt a = .ok message) :
    apply (.changePartition id) [a] output source nonce =
      .ok (output.encrypt (message % output.partition.plaintextModulus) nonce) := by
  simp [apply, found, Except.mapError, bind, Except.bind]

/-- An operation that is given what it needs has a result. -/
theorem Accepts.realizes (accepts : Accepts keys op inputs) (own : keys.output.IsOf p)
    (valid : p.Valid)
    (foreign : ∀ source, keys.input = some source → ∃ q : Partition, q.Valid ∧ source.IsOf q)
    (nonce : UInt64) : ∃ ct, run op inputs keys nonce = .ok ct ∧ Realizes keys nonce op inputs ct := by
  obtain ⟨source, under⟩ := accepts.exists_under
  have arity := accepts.arity
  have lengths := accepts.lengths source under
  have phases : ∀ ct ∈ inputs, ∃ x, source.phase ct = .ok x := by
    obtain ⟨q, -, source_of⟩ := Strict.exists_valid_of_under own valid foreign under
    intro ct mem
    exact ⟨_, source_of.phase (source_of.partition ▸ lengths ct mem)⟩
  rw [run_eq_apply (sourceKeys_eq_ok_iff.mpr under) arity lengths]
  cases under with
  | change bound =>
      obtain ⟨a, rfl⟩ := List.length_eq_one_iff.mp arity
      obtain ⟨x, phase⟩ := phases a (by simp)
      have found := KeySet.decrypt_of_phase phase
      exact ⟨_, apply_changePartition found, .changePartition bound found⟩
  | own stays =>
      cases op with
      | add =>
          obtain ⟨a, b, rfl⟩ := List.length_eq_two.mp arity
          obtain ⟨x, left⟩ := phases a (by simp)
          obtain ⟨y, right⟩ := phases b (by simp)
          have adds : AddsUp fun a b => a + b := fun a b c d => add_add_add_comm a c b d
          exact ⟨_, rfl, .add left right (own.phase_zipWith adds left right)⟩
      | sub =>
          obtain ⟨a, b, rfl⟩ := List.length_eq_two.mp arity
          obtain ⟨x, left⟩ := phases a (by simp)
          obtain ⟨y, right⟩ := phases b (by simp)
          have adds : AddsUp fun a b => a - b := fun a b c d => add_sub_add_comm a c b d
          exact ⟨_, rfl, .sub left right (own.phase_zipWith adds left right)⟩
      | neg =>
          obtain ⟨a, rfl⟩ := List.length_eq_one_iff.mp arity
          obtain ⟨x, given⟩ := phases a (by simp)
          have adds (a b : UInt64) : 0 - (a + b) = 0 - a + (0 - b) := by
            rw [zero_sub, zero_sub, zero_sub, neg_add]
          have made := own.phase_map adds given
          rw [zero_sub] at made
          exact ⟨_, rfl, .neg given made⟩
      | addPlain constant =>
          obtain ⟨a, rfl⟩ := List.length_eq_one_iff.mp arity
          obtain ⟨x, given⟩ := phases a (by simp)
          exact ⟨_, rfl, .addPlain given (own.phase_mapBody _ given)⟩
      | mulPlain constant =>
          obtain ⟨a, rfl⟩ := List.length_eq_one_iff.mp arity
          obtain ⟨x, given⟩ := phases a (by simp)
          have made := own.phase_map (g := (· * constant)) (fun a b => add_mul a b constant) given
          rw [mul_comm] at made
          exact ⟨_, rfl, .mulPlain given made⟩
      | lookup table =>
          obtain ⟨a, rfl⟩ := List.length_eq_one_iff.mp arity
          obtain ⟨x, phase⟩ := phases a (by simp)
          have found := KeySet.decrypt_of_phase phase
          have valid' : keys.output.partition.Valid := own.partition.symm ▸ valid
          have fits := (tableFits_iff valid').mpr (accepts.fits table rfl)
          have there := getElem?_tableEntry (tableFits_pos fits) (keys.output.decode x)
          exact ⟨_, apply_lookup fits found, .lookup found there⟩
      | changePartition id => exact absurd rfl (stays id)
      | identity =>
          obtain ⟨a, rfl⟩ := List.length_eq_one_iff.mp arity
          exact ⟨a, rfl, .identity⟩

/-- The reference arithmetic never crashes, whatever its inputs.  It has a result exactly if it is given
what it needs, and then the result has the length of the partition and is what the operation realizes. -/
theorem reference_algebra {seed : KeySeed} (built : KeySet.Built p seed keys.output)
    (foreign : ∀ source, keys.input = some source → ∃ q seed, KeySet.Built q seed source)
    (op : Operation) (inputs : List Ciphertext) (nonce : UInt64) :
    Strict.run op inputs keys nonce = Primitives.reference.run op inputs keys nonce ∧
      (∀ text, Strict.run op inputs keys nonce ≠ .crashed text) ∧
      ((∃ ct, Strict.run op inputs keys nonce = .done ct) ↔ Accepts keys op inputs) ∧
      ∀ ct, Strict.run op inputs keys nonce = .done ct →
        ct.length = p.ciphertextLength ∧ Realizes keys nonce op inputs ct := by
  obtain ⟨valid, own⟩ := built.isOf
  have foreign' : ∀ source, keys.input = some source → ∃ q : Partition, q.Valid ∧ source.IsOf q := by
    intro source bound
    obtain ⟨q, seed, made⟩ := foreign source bound
    exact ⟨q, made.isOf⟩
  have same := Strict.run_eq own valid foreign' op inputs nonce
  obtain rfl := own.partition
  rw [same]
  simp only [Outcome.ofExcept_eq_done_iff]
  refine ⟨rfl, Outcome.ofExcept_ne_crashed _, ?_, ?_⟩
  · constructor
    · rintro ⟨ct, ran⟩
      exact accepts_of_run valid ran
    · intro accepts
      obtain ⟨ct, ran, -⟩ := accepts.realizes own valid foreign' nonce
      exact ⟨ct, ran⟩
  · intro ct ran
    have accepts := accepts_of_run valid ran
    obtain ⟨ct', ran', realized⟩ := accepts.realizes own valid foreign' nonce
    obtain rfl := Except.ok.inj (ran.symm.trans ran')
    obtain ⟨source, under⟩ := accepts.exists_under
    obtain ⟨q, -, source_of⟩ := Strict.exists_valid_of_under own valid foreign' under
    exact ⟨length_of_run own (sourceKeys_eq_ok_iff.mpr under) source_of ran, realized⟩

/-- A sum of two ciphertexts, word by word. -/
theorem reference_algebra_sum :
    let keys : OperationKeys :=
      { output := .ofSeed Collision.base default, input := some (.ofSeed Collision.base default) }
    KeySet.Built Collision.base default keys.output ∧
      (∀ source, keys.input = some source → ∃ q seed, KeySet.Built q seed source) ∧
      Strict.run .add [[1, 2, 3, 4, 5], [9, 8, 7, 6, 5]] keys 7 = .done [10, 10, 10, 10, 10] ∧
      Realizes keys 7 .add [[1, 2, 3, 4, 5], [9, 8, 7, 6, 5]] [10, 10, 10, 10, 10] := by
  intro keys
  have built := KeySet.built_ofSeed Collision.valid.1 default
  have foreign : ∀ source, keys.input = some source → ∃ q seed, KeySet.Built q seed source := by
    intro source bound
    obtain rfl := Option.some.inj bound
    exact ⟨_, _, built⟩
  obtain ⟨same, -, -, realizes⟩ :=
    reference_algebra built foreign .add [[1, 2, 3, 4, 5], [9, 8, 7, 6, 5]] 7
  have partition : keys.output.partition = Collision.base := (KeySet.isOf_ofSeed _ _).partition
  have length : Collision.base.ciphertextLength = 5 := by decide
  have applied := @run_eq_apply .add [[1, 2, 3, 4, 5], [9, 8, 7, 6, 5]] keys keys.output rfl rfl
    (by simp [partition, length]) 7
  have ran := same.trans (congrArg Outcome.ofExcept applied)
  exact ⟨built, foreign, ran, (realizes _ ran).2⟩

end HomCircuit.Primitive
