import HomCircuit.Backend.Outcome
import HomCircuit.Proofs.Key.Phase
import HomCircuit.Proofs.Primitive.Shape

/-!
# HomCircuit.Proofs.Primitive.Strict

The reference arithmetic with a crash in place of every step that may be undefined.

```
a / 0, a % 0          crash
xs[i]                 crashes unless i < length of xs
xs cut at i           crashes unless i ≤ length of xs
n + 1                 crashes unless it is a machine word
```

The arithmetic that runs is total: a quotient by zero is zero, and an entry that is missing is zero too.
So it cannot tell by itself that these values are never asked for.  Here the same arithmetic is written
down with a crash for each of them.  Under keys of valid partitions both agree on all inputs, and so there
is no crash.

* `Strict.run` — an operation, step by step;
* `Strict.phase_eq`, `Strict.decode_eq`, `Strict.encrypt_eq` — one equation for each function that it
  calls;
* `Strict.run_eq` — an operation under keys of valid partitions is that of the total arithmetic.
-/

namespace HomCircuit

namespace Outcome

variable {ε α β : Type}

@[simp] theorem done_bind (a : α) (f : α → Outcome ε β) : (done a >>= f) = f a := rfl

@[simp] theorem failed_bind (e : ε) (f : α → Outcome ε β) : (failed e >>= f) = failed e := rfl

@[simp] theorem pure_eq_done (a : α) : (pure a : Outcome ε α) = done a := rfl

@[simp] theorem ofExcept_ok (a : α) : (ofExcept (.ok a) : Outcome ε α) = done a := rfl

@[simp] theorem ofExcept_error (e : ε) : (ofExcept (.error e) : Outcome ε α) = failed e := rfl

theorem ofExcept_eq_done_iff {r : Except ε α} {a : α} : ofExcept r = done a ↔ r = .ok a := by
  cases r <;> simp

theorem ofExcept_ne_crashed (r : Except ε α) (text : Option String) : ofExcept r ≠ crashed text := by
  cases r <;> simp

/-- What does not crash does not crash with what follows, if that does not. -/
theorem ofExcept_bind (r : Except ε α) (f : α → Except ε β) :
    ofExcept (r >>= f) = ofExcept r >>= fun a => ofExcept (f a) := by
  cases r <;> rfl

theorem ofExcept_mapError {ε' : Type} (g : ε → ε') (r : Except ε α) :
    ofExcept (r.mapError g) = (ofExcept r).mapError g := by
  cases r <;> rfl

end Outcome

namespace Strict

/-! ## steps -/

section Steps

variable {ε α : Type}

/-- A quotient, which a divisor of zero has not. -/
def quotient (a divisor : UInt64) : Outcome ε UInt64 :=
  if divisor = 0 then .crashed (some "attempt to divide by zero") else .done (a / divisor)

/-- A remainder, which a divisor of zero has not. -/
def remainder (a divisor : UInt64) : Outcome ε UInt64 :=
  if divisor = 0 then
    .crashed (some "attempt to calculate the remainder with a divisor of zero")
  else .done (a % divisor)

/-- One more, where that is a machine word. -/
def successor (n : Nat) : Outcome ε Nat :=
  if n + 1 < UInt64.size then .done (n + 1) else .crashed (some "attempt to add with overflow")

/-- The entry at an index, where there is one. -/
def entry (xs : List α) (i : Nat) : Outcome ε α :=
  match xs[i]? with
  | some x => .done x
  | none => .crashed (some s!"index out of bounds: the len is {xs.length} but the index is {i}")

/-- The two parts on either side of an index, where there are so many entries. -/
def cut (xs : List α) (i : Nat) : Outcome ε (List α × List α) :=
  if i ≤ xs.length then .done (xs.take i, xs.drop i) else .crashed (some "mid > len")

theorem quotient_of_ne_zero {divisor : UInt64} (h : divisor ≠ 0) (a : UInt64) :
    (quotient a divisor : Outcome ε UInt64) = .done (a / divisor) := if_neg h

theorem remainder_of_ne_zero {divisor : UInt64} (h : divisor ≠ 0) (a : UInt64) :
    (remainder a divisor : Outcome ε UInt64) = .done (a % divisor) := if_neg h

@[simp] theorem entry_cons_zero (x : α) (xs : List α) :
    (entry (x :: xs) 0 : Outcome ε α) = .done x := rfl

@[simp] theorem entry_cons_one (x y : α) (xs : List α) :
    (entry (x :: y :: xs) 1 : Outcome ε α) = .done y := rfl

theorem entry_of_getElem? {xs : List α} {i : Nat} {x : α} (h : xs[i]? = some x) :
    (entry xs i : Outcome ε α) = .done x := by
  rw [entry, h]

theorem cut_append_length (xs ys : List α) :
    (cut (xs ++ ys) xs.length : Outcome ε (List α × List α)) = .done (xs, ys) := by
  simp [cut]

end Steps

/-! ## keys -/

/-- Words of a ciphertext. -/
def ciphertextLength {ε : Type} (p : Partition) : Outcome ε Nat := successor p.keyDim

/-- Distance of neighbouring plaintexts. -/
def delta {ε : Type} (p : Partition) : Outcome ε UInt64 :=
  quotient 0x8000000000000000 (max p.plaintextModulus 1)

/-- A message on the torus. -/
def encode {ε : Type} (k : KeySet) (message : UInt64) : Outcome ε UInt64 := do
  let reduced ← remainder message k.partition.plaintextModulus
  let step ← delta k.partition
  return reduced * step

/-- The plaintext nearest to a torus word. -/
def decode {ε : Type} (k : KeySet) (phase : UInt64) : Outcome ε UInt64 := do
  let step ← delta k.partition
  let rounded ← quotient (phase + step / 2) step
  remainder rounded k.partition.plaintextModulus

/-- Encryption of a message, with room for a word more than the key has coefficients. -/
def encrypt {ε : Type} (k : KeySet) (message nonce : UInt64) : Outcome ε Ciphertext := do
  let _ ← successor k.encryptionKey.length
  let mask := (k.randomness nonce).1
  let noise := (k.randomness nonce).2
  let encoded ← encode k message
  return mask ++ [dot mask k.encryptionKey + encoded + noise]

/-- The body less what the mask contributes. -/
def phase (k : KeySet) (ct : Ciphertext) : Outcome KeyError UInt64 := do
  let expected ← ciphertextLength k.partition
  if ct.length ≠ expected then
    .failed (.ciphertextShape k.partition.name expected ct.length)
  else
    let parts ← cut ct (expected - 1)
    let body ← entry parts.2 0
    return body - dot parts.1 k.encryptionKey

/-- The message of a ciphertext. -/
def decrypt (k : KeySet) (ct : Ciphertext) : Outcome KeyError UInt64 := do
  let found ← phase k ct
  decode k found

/-! ## operations -/

/-- The entry of a table for a message, with the length of the table as a word. -/
def tableEntry {ε : Type} (table : List UInt64) (message : UInt64) : Outcome ε UInt64 := do
  let index ← remainder message (UInt64.ofNat table.length)
  entry table index.toNat

/-- An operation on inputs of the right number and length. -/
def apply (op : Operation) (inputs : List Ciphertext) (output source : KeySet) (nonce : UInt64) :
    Outcome PrimitiveError Ciphertext :=
  let modulus := output.partition.plaintextModulus
  match op with
  | .add => do
    let a ← entry inputs 0
    let b ← entry inputs 1
    return List.zipWith (· + ·) a b
  | .sub => do
    let a ← entry inputs 0
    let b ← entry inputs 1
    return List.zipWith (· - ·) a b
  | .neg => do
    let a ← entry inputs 0
    return a.map (0 - ·)
  | .addPlain constant => do
    let a ← entry inputs 0
    let encoded ← encode output constant
    return Primitive.mapBody (· + encoded) a
  | .mulPlain constant => do
    let a ← entry inputs 0
    return a.map (· * constant)
  | .lookup table => do
    .ofExcept (Primitive.checkTable table output.partition)
    let a ← entry inputs 0
    let message ← (decrypt output a).mapError .key
    let value ← tableEntry table message
    let reduced ← remainder value modulus
    encrypt output reduced nonce
  | .changePartition _ => do
    let a ← entry inputs 0
    let message ← (decrypt source a).mapError .key
    let reduced ← remainder message modulus
    encrypt output reduced nonce
  | .identity => entry inputs 0

/-- The reference arithmetic. -/
def run (op : Operation) (inputs : List Ciphertext) (keys : OperationKeys) (nonce : UInt64) :
    Outcome PrimitiveError Ciphertext :=
  if inputs.length ≠ op.arity then .failed (.arity op.name op.arity inputs.length)
  else do
    let source ← .ofExcept (Primitive.sourceKeys op keys)
    let expected ← ciphertextLength source.partition
    .ofExcept (Primitive.checkShapes expected inputs)
    apply op inputs keys.output source nonce

/-! ## keys of valid partitions -/

section Valid

variable {ε : Type} {p q : Partition} {k : KeySet}

theorem ciphertextLength_eq (valid : p.Valid) :
    (ciphertextLength p : Outcome ε Nat) = .done p.ciphertextLength := by
  have small : p.keyDim ≤ maxKeyDim := by
    unfold Partition.keyDim
    cases p.keyChoice with
    | big => exact valid.bigDim_le
    | small => exact valid.lweDim_le
  have bound : maxKeyDim + 1 < UInt64.size := by decide
  exact if_pos (by omega)

theorem delta_eq (valid : p.Valid) : (delta p : Outcome ε UInt64) = .done p.delta := by
  apply quotient_of_ne_zero
  rw [valid.max_plaintextModulus]
  exact valid.plaintextModulus_ne_zero

/-- The entry of a table that fits, found by its length as a word. -/
theorem tableEntry_eq (valid : p.Valid) {table : List UInt64}
    (fits : Primitive.tableFits table p = true) (message : UInt64) :
    (tableEntry table message : Outcome ε UInt64) = .done (Primitive.tableEntry table message) := by
  have word : (UInt64.ofNat table.length).toNat = table.length ∧ 0 < table.length := by
    have plaintexts := valid.plaintextModulus_pos
    have messages := valid.messageModulus_pos
    cases (Primitive.tableFits_iff valid).mp fits with
    | inl same => rw [same, UInt64.ofNat_toNat]; exact ⟨rfl, plaintexts⟩
    | inr same => rw [same, UInt64.ofNat_toNat]; exact ⟨rfl, messages⟩
  obtain ⟨length, some_⟩ := word
  have divisor : UInt64.ofNat table.length ≠ 0 := by
    intro zero
    rw [zero] at length
    exact some_.ne length
  rw [tableEntry, remainder_of_ne_zero divisor, Outcome.done_bind, UInt64.toNat_mod, length]
  exact entry_of_getElem? (Primitive.getElem?_tableEntry some_ message)

variable (own : k.IsOf p) (valid : p.Valid)

include own valid

theorem encode_eq (message : UInt64) :
    (encode k message : Outcome ε UInt64) = .done (k.encode message) := by
  obtain rfl := own.partition
  simp [encode, remainder_of_ne_zero valid.plaintextModulus_ne_zero, delta_eq valid, KeySet.encode]

theorem decode_eq (word : UInt64) :
    (decode k word : Outcome ε UInt64) = .done (k.decode word) := by
  obtain rfl := own.partition
  simp [decode, delta_eq valid, quotient_of_ne_zero valid.delta_ne_zero,
    remainder_of_ne_zero valid.plaintextModulus_ne_zero, KeySet.decode]

theorem encrypt_eq (message nonce : UInt64) :
    (encrypt k message nonce : Outcome ε Ciphertext) = .done (k.encrypt message nonce) := by
  have room : (successor k.encryptionKey.length : Outcome ε Nat) = .done p.ciphertextLength := by
    rw [own.length_encryptionKey]
    exact ciphertextLength_eq valid
  simp only [encrypt, room, encode_eq own valid, Outcome.done_bind, Outcome.pure_eq_done]
  rw [KeySet.encrypt_eq]

/-- The body is there whenever the length is right. -/
theorem phase_eq (ct : Ciphertext) : phase k ct = .ofExcept (k.phase ct) := by
  obtain rfl := own.partition
  simp only [phase, ciphertextLength_eq valid, Outcome.done_bind]
  split
  · next wrong => simp [KeySet.phase, wrong]
  · next whole =>
      have some_ : (k.phase ct).isOk := by simp [KeySet.phase, not_not.mp whole, Except.isOk, Except.toBool]
      obtain ⟨mask, body, rfl, length, -⟩ :=
        own.phase_eq_ok_iff.mp (Except.eq_ok_of_isOk some_)
      have parts : k.partition.ciphertextLength - 1 = mask.length := length.symm
      rw [parts, cut_append_length, own.phase_eq_ok_iff.mpr ⟨mask, body, rfl, length, rfl⟩]
      rfl

theorem decrypt_eq (ct : Ciphertext) : decrypt k ct = .ofExcept (k.decrypt ct) := by
  rw [decrypt, phase_eq own valid, KeySet.decrypt]
  cases k.phase ct with
  | error e => rfl
  | ok x => exact decode_eq own valid x

end Valid

/-! ## agreement -/

section Agreement

variable {p q : Partition} {keys : OperationKeys} {source : KeySet} {inputs : List Ciphertext}

/-- An operation on inputs of the right number is that of the total arithmetic. -/
theorem apply_eq {output : KeySet} (own : output.IsOf p) (valid : p.Valid) (foreign : source.IsOf q)
    (valid' : q.Valid) {op : Operation} (arity : inputs.length = op.arity) (nonce : UInt64) :
    apply op inputs output source nonce =
      .ofExcept (Primitive.apply op inputs output source nonce) := by
  obtain rfl := own.partition
  have modulus := valid.plaintextModulus_ne_zero
  cases op with
  | add =>
      obtain ⟨a, b, rfl⟩ := List.length_eq_two.mp arity
      rfl
  | sub =>
      obtain ⟨a, b, rfl⟩ := List.length_eq_two.mp arity
      rfl
  | neg =>
      obtain ⟨a, rfl⟩ := List.length_eq_one_iff.mp arity
      rfl
  | addPlain constant =>
      obtain ⟨a, rfl⟩ := List.length_eq_one_iff.mp arity
      simp [apply, encode_eq own valid, Primitive.apply]
  | mulPlain constant =>
      obtain ⟨a, rfl⟩ := List.length_eq_one_iff.mp arity
      rfl
  | lookup table =>
      obtain ⟨a, rfl⟩ := List.length_eq_one_iff.mp arity
      simp only [apply, Primitive.apply, entry_cons_zero, Outcome.done_bind, decrypt_eq own valid,
        List.getD_cons_zero, Outcome.ofExcept_bind, Outcome.ofExcept_mapError]
      cases fits : Primitive.tableFits table output.partition with
      | false => simp [Primitive.checkTable, fits]
      | true =>
          simp [Primitive.checkTable, fits, tableEntry_eq valid fits, remainder_of_ne_zero modulus,
            encrypt_eq own valid]
  | changePartition id =>
      obtain ⟨a, rfl⟩ := List.length_eq_one_iff.mp arity
      simp [apply, Primitive.apply, decrypt_eq foreign valid', Outcome.ofExcept_bind,
        Outcome.ofExcept_mapError, remainder_of_ne_zero modulus, encrypt_eq own valid]
  | identity =>
      obtain ⟨a, rfl⟩ := List.length_eq_one_iff.mp arity
      rfl

variable (own : keys.output.IsOf p) (valid : p.Valid)
  (foreign : ∀ source, keys.input = some source → ∃ q : Partition, q.Valid ∧ source.IsOf q)

include own valid foreign

/-- Inputs are under keys of some valid partition. -/
theorem exists_valid_of_under {op : Operation} (under : Primitive.Under keys op source) :
    ∃ q : Partition, q.Valid ∧ source.IsOf q := by
  cases under with
  | change bound => exact foreign source bound
  | own stays => exact ⟨p, valid, own⟩

/-- Under keys of valid partitions, an operation is that of the total arithmetic. -/
theorem run_eq (op : Operation) (inputs : List Ciphertext) (nonce : UInt64) :
    run op inputs keys nonce = .ofExcept (Primitive.run op inputs keys nonce) := by
  unfold run Primitive.run
  split
  · rfl
  · next arity =>
      rw [Outcome.ofExcept_bind]
      cases found : Primitive.sourceKeys op keys with
      | error e => rfl
      | ok source =>
          obtain ⟨q, valid', source_of⟩ :=
            exists_valid_of_under own valid foreign (Primitive.sourceKeys_eq_ok_iff.mp found)
          obtain rfl := source_of.partition
          simp only [Outcome.ofExcept_ok, Outcome.done_bind, ciphertextLength_eq valid',
            Outcome.ofExcept_bind]
          cases Primitive.checkShapes source.partition.ciphertextLength inputs with
          | error e => rfl
          | ok u => exact apply_eq own valid source_of valid' (not_not.mp arity) nonce

end Agreement

end Strict

end HomCircuit
