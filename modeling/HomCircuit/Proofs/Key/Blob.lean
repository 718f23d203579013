import HomCircuit.Key.Blob
import HomCircuit.Proofs.Format
import HomCircuit.Proofs.Key.Collision
import HomCircuit.Proofs.Key.Shape
import HomCircuit.Proofs.Partition.Identity

/-!
# HomCircuit.Proofs.Key.Blob

Stored keys come back as they were stored, or not at all.

```
header  =  "CFKEY" ++ version ++ [flags] ++ checksum
          0         5          9        10           18
stored  =  header ++ payload
```

A changed byte of the magic, the version or the checksum is noticed as such; one of the payload
changes the checksum, whatever follows it; the flags may be anything. A payload that has lost its
end may have any checksum: it is the reader of the payload that refuses it.

* `KeyBlob.ofBytes_header` — what is made of a header and of what follows it;
* `KeyBlob.round_trip` — blobs and key sets that are stored and read again;
* `KeyBlob.corruption_noticed` — one byte that is replaced, and bytes that are missing at the end.
-/

namespace HomCircuit

/-- A list with another member at one place is another list. -/
theorem set_ne_of_getElem? {α : Type} {as : List α} {i : Nat} {a : α} (inside : i < as.length)
    (other : as[i]? ≠ some a) : as.set i a ≠ as := by
  intro same
  exact other (same ▸ List.getElem?_set_self inside)

/-- Another member inside a middle piece makes that piece another one, and leaves the others. -/
theorem set_append_middle {α : Type} {front field back : List α} {i : Nat} {a : α}
    (after : front.length ≤ i) (before : i < front.length + field.length)
    (other : (front ++ field ++ back)[i]? ≠ some a) :
    (front ++ field ++ back).set i a = front ++ field.set (i - front.length) a ++ back ∧
      field.set (i - front.length) a ≠ field := by
  have inside : i - front.length < field.length := by omega
  rw [List.append_assoc, List.getElem?_append_right after, List.getElem?_append_left inside] at other
  refine ⟨?_, set_ne_of_getElem? inside other⟩
  rw [List.append_assoc, List.set_append_right i a after, List.set_append_left _ a inside,
    List.append_assoc]

/-- A hash changes with any one byte. -/
theorem Hash.fnv1a_set_ne {bytes : List UInt8} {i : Nat} {x : UInt8} (inside : i < bytes.length)
    (other : bytes.set i x ≠ bytes) : fnv1a (bytes.set i x) ≠ fnv1a bytes := by
  have there : bytes.set i x = bytes.take i ++ x :: bytes.drop (i + 1) := by
    rw [List.set_eq_take_append_cons_drop, if_pos inside]
  have before : bytes = bytes.take i ++ bytes[i] :: bytes.drop (i + 1) := by
    rw [List.cons_getElem_drop_succ, List.take_append_drop]
  have differ : x ≠ bytes[i] := fun same => other (same ▸ List.set_getElem_self inside)
  rw [there]
  conv => rhs; rw [before]
  exact fnv1a_ne_of_byte _ _ differ

theorem KeySeed.format_exact : KeySeed.format.Exact := by
  intro seed
  have word64 := Format.word64_exact.readsBack
  exact Format.ReadsBack.via ((word64 seed.secret).pair (word64 seed.encryption)) rfl

theorem KeySeed.format_steady : KeySeed.format.Steady :=
  (Format.word64_steady.pair Format.word64_steady).via _ _

/-! ## keys and their bytes -/

namespace KeySet

variable {p : Partition} {seed : KeySeed} {k : KeySet}

theorem length_keyBytes (k : KeySet) : k.keyBytes.length = k.small.length + k.big.length := by
  simp [keyBytes]

/-- Each coefficient is written as zero or one. -/
theorem keyBytes_binary (k : KeySet) : k.keyBytes.findIdx? (1 < ·) = none := by
  rw [List.findIdx?_eq_none_iff]
  intro x member
  obtain ⟨s, -, rfl⟩ := List.mem_map.mp member
  cases s <;> decide

/-- Coefficients are told by their bytes. -/
theorem keyBytes_eq_one (k : KeySet) : k.keyBytes.map (· == 1) = k.small ++ k.big := by
  rw [keyBytes, List.map_map]
  refine (List.map_congr_left fun s _ => ?_).trans (List.map_id _)
  cases s <;> rfl

/-- The bytes of the keys of a valid partition make the same keys. -/
theorem IsOf.ofKeyBytes_keyBytes (valid : p.Valid) (h : k.IsOf p) :
    ofKeyBytes k.partition k.seed k.keyBytes = .ok k := by
  have length : k.keyBytes.length = p.lweDim.toNat + p.bigDim := by
    rw [length_keyBytes, h.small, h.big]
  have small : (k.small ++ k.big).take p.lweDim.toNat = k.small := by
    rw [← h.small, List.take_left]
  have big : (k.small ++ k.big).drop p.lweDim.toNat = k.big := by
    rw [← h.small, List.drop_left]
  obtain ⟨_, _, _, _⟩ := k
  obtain rfl := h.partition
  simp only [ofKeyBytes, Partition.validate_eq_ok_iff.mpr valid, length, keyBytes_binary,
    keyBytes_eq_one, small, big, ne_eq, not_true_eq_false, if_false]

/-- The ways to come by a key set of a partition and a seed. -/
def Built (p : Partition) (seed : KeySeed) (k : KeySet) : Prop :=
  generate p seed = .ok k ∨ ∃ bytes, ofKeyBytes p seed bytes = .ok k

/-- What is built is of a valid partition. -/
theorem Built.isOf (h : Built p seed k) : p.Valid ∧ k.IsOf p := by
  rcases h with generated | ⟨bytes, read⟩
  · unfold generate at generated
    split at generated
    · contradiction
    · next valid =>
        obtain rfl := Except.ok.inj generated
        exact ⟨Partition.validate_eq_ok_iff.mp valid, isOf_ofSeed p seed⟩
  · refine ⟨?_, isOf_of_ofKeyBytes read⟩
    unfold ofKeyBytes at read
    split at read
    · contradiction
    · next valid => exact Partition.validate_eq_ok_iff.mp valid

/-- Every valid partition has keys under every seed. -/
theorem built_ofSeed (valid : p.Valid) (seed : KeySeed) : Built p seed (ofSeed p seed) := by
  left
  rw [generate, Partition.validate_eq_ok_iff.mpr valid]

end KeySet

namespace KeyBlob

variable {b : KeyBlob}

/-! ## the payload -/

/-- Whether a 64-bit number tells the lengths of a blob's name and keys, as it does of all that fits
into memory. -/
def Addressable (b : KeyBlob) : Prop :=
  (utf8Bytes b.partition.name).length < UInt64.size ∧ b.keyBytes.length < UInt64.size

theorem payload_readsBack (h : b.Addressable) :
    payloadFormat.ReadsBack (b.partition, b.seed, b.keyBytes) := by
  have bytes := Format.ReadsBack.list (fun x _ => Format.byte_exact.readsBack x) h.2
  unfold payloadFormat
  exact (Partition.format_readsBack h.1).pair ((KeySeed.format_exact.readsBack b.seed).pair bytes)

theorem payload_steady : payloadFormat.Steady := by
  unfold payloadFormat
  exact Partition.format_steady.pair (KeySeed.format_steady.pair Format.byte_steady.list)

theorem read_payload (h : b.Addressable) :
    payloadFormat.read b.payload = some ((b.partition, b.seed, b.keyBytes), []) := by
  have read := payload_readsBack h []
  rw [List.append_nil] at read
  rw [payload, read]

/-- Lengths that were read were told by a 64-bit number. -/
theorem addressable_of_read {bytes rest : List UInt8}
    (h : payloadFormat.read bytes = some ((b.partition, b.seed, b.keyBytes), rest)) :
    b.Addressable := by
  obtain ⟨_, name, back⟩ := Format.exists_of_read_pair h
  obtain ⟨_, -, keys⟩ := Format.exists_of_read_pair back
  exact ⟨Partition.length_name_of_read name, Format.length_of_read_list keys⟩

/-! ## the header -/

/-- What stands before the payload. -/
def header (version : UInt32) (flags : UInt8) (checksum : UInt64) : List UInt8 :=
  magic ++ UInt32.toBytes version ++ [flags] ++ UInt64.toBytes checksum

theorem length_magic : magic.length = 5 := by decide

theorem toBytes_eq (b : KeyBlob) :
    b.toBytes = header currentVersion 0 (Hash.fnv1a b.payload) ++ b.payload := rfl

theorem length_header (version : UInt32) (flags : UInt8) (checksum : UInt64) :
    (header version flags checksum).length = headerLength := by
  simp [header, length_magic, headerLength]

/-- A field is what stands at its place. -/
theorem headerField_append (front field back : List UInt8) :
    headerField (front ++ (field ++ back)) front.length field.length = ofLittleEndian field := by
  rw [headerField, List.drop_left, List.take_left]

section

variable (version : UInt32) (flags : UInt8) (checksum : UInt64) (payload : List UInt8)

/-- What is made of a payload. -/
def ofPayload : Except BlobError KeyBlob :=
  match payloadFormat.read payload with
  | none => .error (.deserialization "malformed payload")
  | some ((partition, seed, keyBytes), _) => .ok { version, partition, seed, keyBytes }

theorem headerField_version :
    headerField (header version flags checksum ++ payload) 5 4 = version.toNat := by
  have at_place := headerField_append magic (UInt32.toBytes version)
    ([flags] ++ UInt64.toBytes checksum ++ payload)
  rw [length_magic, UInt32.length_toBytes, ofLittleEndian_word32] at at_place
  simpa [header] using at_place

theorem headerField_checksum :
    headerField (header version flags checksum ++ payload) 10 8 = checksum.toNat := by
  have at_place := headerField_append (magic ++ UInt32.toBytes version ++ [flags])
    (UInt64.toBytes checksum) payload
  have length : (magic ++ UInt32.toBytes version ++ [flags]).length = 10 := by simp [length_magic]
  rw [length, UInt64.length_toBytes, ofLittleEndian_word64] at at_place
  simpa [header] using at_place

/-- What is made of a header and of what follows it: the version is looked at, then the checksum, and
then the payload. -/
theorem ofBytes_header : ofBytes (header version flags checksum ++ payload) =
    if version = 0 ∨ currentVersion < version then
      .error (.versionMismatch version currentVersion)
    else if Hash.fnv1a payload ≠ checksum then .error .checksumMismatch
    else ofPayload version payload := by
  have found : (header version flags checksum ++ payload).take magic.length = magic := by
    simp [header, List.append_assoc]
  have long : headerLength ≤ (header version flags checksum ++ payload).length := by
    rw [List.length_append, length_header]
    omega
  have rest : (header version flags checksum ++ payload).drop headerLength = payload := by
    rw [← length_header version flags checksum, List.drop_left]
  have five : ¬ (header version flags checksum ++ payload).length < magic.length := by
    rw [length_magic]
    unfold headerLength at long
    omega
  simp only [ofBytes, found, rest, headerField_version, headerField_checksum, five,
    Nat.not_lt.mpr long, UInt32.ofNat_toNat, UInt64.toNat_inj, ne_eq, not_true_eq_false, if_false]
  rfl

end

/-- A header of the current version admits a payload of its checksum. -/
theorem ofBytes_current (flags : UInt8) (checksum : UInt64) (payload : List UInt8) :
    ofBytes (header currentVersion flags checksum ++ payload) =
      if Hash.fnv1a payload ≠ checksum then .error .checksumMismatch
      else ofPayload currentVersion payload := by
  rw [ofBytes_header, if_neg (by decide)]

/-- Another version than the current one is refused. -/
theorem ofBytes_otherVersion {version : UInt32} (other : version ≠ currentVersion) (flags : UInt8)
    (checksum : UInt64) (payload : List UInt8) :
    ofBytes (header version flags checksum ++ payload) =
      .error (.versionMismatch version currentVersion) := by
  rw [ofBytes_header, if_pos]
  have : version.toNat ≠ currentVersion.toNat := mt UInt32.toNat_inj.mp other
  rw [← UInt32.toNat_inj, UInt32.lt_iff_toNat_lt]
  change version.toNat = 0 ∨ 1 < version.toNat
  change version.toNat ≠ 1 at this
  omega

/-! ## storing and reading -/

theorem ofBytes_toBytes (h : b.Addressable) :
    ofBytes b.toBytes = .ok { b with version := currentVersion } := by
  rw [toBytes_eq, ofBytes_current, if_neg (not_not.mpr rfl), ofPayload, read_payload h]

/-- Whatever was read could be stored and read again. -/
theorem addressable_of_ofBytes {bytes : List UInt8} (h : ofBytes bytes = .ok b) : b.Addressable := by
  unfold ofBytes at h
  dsimp only at h
  split at h
  · contradiction
  · split at h
    · contradiction
    · split at h
      · contradiction
      · split at h
        · contradiction
        · split at h
          · contradiction
          · split at h
            · contradiction
            · next read =>
                obtain rfl := Except.ok.inj h
                exact addressable_of_read read

/-- The blob of a key set makes the same key set. -/
theorem toKeySet_ofKeySet {p : Partition} {k : KeySet} (valid : p.Valid) (h : k.IsOf p) :
    (ofKeySet k).toKeySet = .ok k := h.ofKeyBytes_keyBytes valid

/-- The keys of a valid partition are few. -/
theorem addressable_ofKeySet {p : Partition} {k : KeySet} (valid : p.Valid) (h : k.IsOf p)
    (short : (utf8Bytes p.name).length < UInt64.size) : (ofKeySet k).Addressable := by
  have small := valid.lweDim_le
  have big := valid.bigDim_le
  have room : maxKeyDim + maxKeyDim < UInt64.size := by decide
  constructor
  · change (utf8Bytes k.partition.name).length < UInt64.size
    rwa [h.partition]
  · change k.keyBytes.length < UInt64.size
    rw [KeySet.length_keyBytes, h.small, h.big]
    omega

/-- A blob that is stored and read is the blob that was stored, of the current version, exactly if
its lengths can be told. Key sets of any origin that are stored and read are what they were. -/
theorem round_trip :
    (∀ b : KeyBlob, ofBytes b.toBytes = .ok { b with version := currentVersion } ↔ b.Addressable) ∧
      ∀ p seed k, KeySet.Built p seed k → (utf8Bytes p.name).length < UInt64.size →
        ∃ b, ofBytes (ofKeySet k).toBytes = .ok b ∧ b.toKeySet = .ok k := by
  refine ⟨fun b => ⟨fun read => ?_, ofBytes_toBytes⟩, fun p seed k built short => ?_⟩
  · exact addressable_of_ofBytes (b := { b with version := currentVersion }) read
  · obtain ⟨valid, keys⟩ := built.isOf
    exact ⟨ofKeySet k, ofBytes_toBytes (addressable_ofKeySet valid keys short),
      toKeySet_ofKeySet valid keys⟩

/-- A generated key set of eight coefficients that is stored and read. -/
theorem round_trip_base :
    KeySet.Built Collision.base default (.ofSeed Collision.base default) ∧
      (utf8Bytes Collision.base.name).length < UInt64.size ∧
      ∃ b, ofBytes (ofKeySet (.ofSeed Collision.base default)).toBytes = .ok b ∧
        b.toKeySet = .ok (.ofSeed Collision.base default) := by
  have built := KeySet.built_ofSeed Collision.valid.1 default
  have short : (utf8Bytes Collision.base.name).length < UInt64.size := by decide
  exact ⟨built, short, round_trip.2 _ _ _ built short⟩

/-! ## one byte replaced -/

section

variable {p : Nat} {x : UInt8}

/-- A byte of the magic is noticed before all else. -/
theorem ofBytes_set_magic (b : KeyBlob) (before : p < 5) (other : b.toBytes[p]? ≠ some x) :
    ofBytes (b.toBytes.set p x) = .error (.invalidMagic (magic.set p x)) := by
  have parts : b.toBytes = [] ++ magic ++ b.toBytes.drop magic.length := by simp [toBytes]
  rw [parts] at other ⊢
  obtain ⟨set, differ⟩ := set_append_middle (Nat.zero_le p) (by simpa [length_magic]) other
  rw [set, List.nil_append]
  change magic.set p x ≠ magic at differ
  change ofBytes (magic.set p x ++ _) = _
  generalize b.toBytes.drop magic.length = rest
  have width : (magic.set p x).length = magic.length := List.length_set
  have found : (magic.set p x ++ rest).take magic.length = magic.set p x := by
    rw [← width, List.take_left]
  have long : ¬ (magic.set p x ++ rest).length < magic.length := by
    rw [List.length_append, width]
    omega
  simp only [ofBytes, found, long, differ, ne_eq, not_false_eq_true, if_true, if_false]

/-- A byte of the version makes another version. -/
theorem ofBytes_set_version (b : KeyBlob) (after : 5 ≤ p) (before : p < 9)
    (other : b.toBytes[p]? ≠ some x) :
    ∃ version, ofBytes (b.toBytes.set p x) = .error (.versionMismatch version currentVersion) := by
  have parts : b.toBytes = magic ++ UInt32.toBytes currentVersion ++
      ([0] ++ UInt64.toBytes (Hash.fnv1a b.payload) ++ b.payload) := by simp [toBytes]
  rw [parts] at other ⊢
  obtain ⟨set, differ⟩ := set_append_middle (by simpa [length_magic]) (by simpa [length_magic]) other
  obtain ⟨version, field⟩ := exists_word32
    (List.length_set.trans (UInt32.length_toBytes currentVersion) :
      ((UInt32.toBytes currentVersion).set (p - magic.length) x).length = 4)
  rw [field] at set differ
  refine ⟨version, ?_⟩
  rw [set, ← ofBytes_otherVersion (mt (congrArg UInt32.toBytes) differ) 0
    (Hash.fnv1a b.payload) b.payload]
  simp [header]

/-- The flags are not looked at. -/
theorem ofBytes_set_flags (b : KeyBlob) (x : UInt8) :
    ofBytes (b.toBytes.set 9 x) = ofBytes b.toBytes := by
  have set : b.toBytes.set 9 x = header currentVersion x (Hash.fnv1a b.payload) ++ b.payload := by
    simp [toBytes, header, length_magic]
  rw [set, toBytes_eq, ofBytes_current, ofBytes_current]

/-- A byte of the checksum makes another checksum. -/
theorem ofBytes_set_checksum (b : KeyBlob) (after : 10 ≤ p) (before : p < headerLength)
    (other : b.toBytes[p]? ≠ some x) : ofBytes (b.toBytes.set p x) = .error .checksumMismatch := by
  have front : (magic ++ UInt32.toBytes currentVersion ++ [0]).length = 10 := by simp [length_magic]
  obtain ⟨set, differ⟩ := set_append_middle (front ▸ after)
    (by rw [front, UInt64.length_toBytes]; exact before) other
  obtain ⟨checksum, field⟩ := exists_word64
    (List.length_set.trans (UInt64.length_toBytes (Hash.fnv1a b.payload)) :
      ((UInt64.toBytes (Hash.fnv1a b.payload)).set
        (p - (magic ++ UInt32.toBytes currentVersion ++ [0]).length) x).length = 8)
  rw [field] at set differ
  have mismatch : Hash.fnv1a b.payload ≠ checksum := fun same => differ (same ▸ rfl)
  rw [toBytes, set]
  exact (ofBytes_current 0 checksum b.payload).trans (if_pos mismatch)

/-- A byte of the payload makes another checksum, whatever follows it. -/
theorem ofBytes_set_payload (b : KeyBlob) (after : headerLength ≤ p) (inside : p < b.toBytes.length)
    (other : b.toBytes[p]? ≠ some x) : ofBytes (b.toBytes.set p x) = .error .checksumMismatch := by
  have front := length_header currentVersion 0 (Hash.fnv1a b.payload)
  have parts : b.toBytes = header currentVersion 0 (Hash.fnv1a b.payload) ++ b.payload ++ [] := by
    rw [toBytes_eq, List.append_nil]
  rw [parts, List.append_nil, List.length_append, front] at inside
  rw [parts] at other ⊢
  obtain ⟨set, differ⟩ := set_append_middle (front.symm ▸ after) (front.symm ▸ inside) other
  rw [set, List.append_nil, ofBytes_current, if_pos]
  exact Hash.fnv1a_set_ne (by omega) differ

end

/-! ## bytes missing at the end -/

/-- Less than a header is noticed by its length. -/
theorem ofBytes_take_header {n : Nat} (short : n < headerLength) (b : KeyBlob) :
    ofBytes (b.toBytes.take n) = .error (.truncated n) := by
  have whole : headerLength ≤ b.toBytes.length := by
    rw [toBytes_eq, List.length_append, length_header]
    omega
  have length : (b.toBytes.take n).length = n := by
    rw [List.length_take]
    omega
  have found (enough : ¬ n < 5) : (b.toBytes.take n).take 5 = magic := by
    rw [List.take_take, Nat.min_eq_left (Nat.not_lt.mp enough)]
    simp [toBytes, ← length_magic]
  simp only [ofBytes, length, length_magic, short]
  split
  · rfl
  · next enough => simp [found enough]

/-- A payload that has lost its end is refused under a header with any checksum: should the checksum
be that of what is left, the payload does not read. -/
theorem ofBytes_take_payload (h : b.Addressable) (flags : UInt8) (checksum : UInt64) {n : Nat}
    (short : n < b.payload.length) :
    ofBytes (header currentVersion flags checksum ++ b.payload.take n) =
      if Hash.fnv1a (b.payload.take n) ≠ checksum then .error .checksumMismatch
      else .error (.deserialization "malformed payload") := by
  have refused : payloadFormat.read (b.payload.take n) = none :=
    Format.read_take_eq_none payload_steady (payload_readsBack h) short
  rw [ofBytes_current, ofPayload, refused]

/-- What a strict prefix of a stored blob keeps beyond its header is a strict prefix of the payload. -/
theorem take_toBytes {n : Nat} (long : headerLength ≤ n) (b : KeyBlob) :
    b.toBytes.take n =
      header currentVersion 0 (Hash.fnv1a b.payload) ++ b.payload.take (n - headerLength) := by
  rw [toBytes_eq, List.take_append, length_header, List.take_of_length_le]
  rwa [length_header]

/-- A payload that has lost its end is refused under a header with any checksum. -/
theorem exists_error_of_take_payload (h : b.Addressable) (flags : UInt8) (checksum : UInt64) {n : Nat}
    (short : n < b.payload.length) :
    ∃ cause, ofBytes (header currentVersion flags checksum ++ b.payload.take n) = .error cause := by
  rw [ofBytes_take_payload h flags checksum short]
  split
  · exact ⟨_, rfl⟩
  · exact ⟨_, rfl⟩

/-- One byte of a stored blob that is replaced is noticed wherever it stands but in the flags, which
may be anything: a byte of the magic or of the version as such, and every byte of the checksum and
of the payload as a mismatch of the two. Bytes that are missing at the end are noticed however many
they are; where the header is whole, they are under any checksum. -/
theorem corruption_noticed (b : KeyBlob) :
    (∀ p x, p < b.toBytes.length → b.toBytes[p]? ≠ some x →
      (p < 5 → ofBytes (b.toBytes.set p x) = .error (.invalidMagic (magic.set p x))) ∧
      (5 ≤ p → p < 9 → ∃ version,
        ofBytes (b.toBytes.set p x) = .error (.versionMismatch version currentVersion)) ∧
      (p = 9 → ofBytes (b.toBytes.set p x) = ofBytes b.toBytes) ∧
      (10 ≤ p → ofBytes (b.toBytes.set p x) = .error .checksumMismatch)) ∧
    (b.Addressable →
      (∀ n < b.toBytes.length, ∃ cause, ofBytes (b.toBytes.take n) = .error cause) ∧
      ∀ flags checksum, ∀ n < b.payload.length, ∃ cause,
        ofBytes (header currentVersion flags checksum ++ b.payload.take n) = .error cause) := by
  refine ⟨fun p x inside other => ⟨fun before => ofBytes_set_magic b before other,
    fun after before => ofBytes_set_version b after before other, fun flags => ?_, fun after => ?_⟩,
    fun fits => ⟨fun n short => ?_, fun flags checksum n => exists_error_of_take_payload fits _ _⟩⟩
  · rw [flags]
    exact ofBytes_set_flags b x
  · cases Nat.lt_or_ge p headerLength with
    | inl before => exact ofBytes_set_checksum b after before other
    | inr behind => exact ofBytes_set_payload b behind inside other
  · cases Nat.lt_or_ge n headerLength with
    | inl before => exact ⟨_, ofBytes_take_header before b⟩
    | inr behind =>
      rw [toBytes_eq, List.length_append, length_header] at short
      rw [take_toBytes behind]
      exact exists_error_of_take_payload fits _ _ (by omega)

/-- A blob of one coefficient: its last byte is replaced, or missing. -/
theorem corruption_noticed_base :
    let b : KeyBlob := { version := 1, partition := Collision.base, seed := default, keyBytes := [1] }
    let last := b.toBytes.length - 1
    (10 ≤ last ∧ last < b.toBytes.length ∧ b.toBytes[last]? ≠ some 0 ∧ b.Addressable) ∧
      ofBytes (b.toBytes.set last 0) = .error .checksumMismatch ∧
      ∃ cause, ofBytes (b.toBytes.take last) = .error cause := by
  intro b last
  have facts : 10 ≤ last ∧ last < b.toBytes.length ∧ b.toBytes[last]? ≠ some 0 ∧
      (utf8Bytes b.partition.name).length < UInt64.size ∧ b.keyBytes.length < UInt64.size := by
    decide +kernel
  obtain ⟨behind, inside, other, fits⟩ := facts
  refine ⟨⟨behind, inside, other, fits⟩, ?_, ?_⟩
  · exact ((corruption_noticed b).1 last 0 inside other).2.2.2 behind
  · exact ((corruption_noticed b).2 fits).1 last inside

end KeyBlob

end HomCircuit
