import HomCircuit.Partition.Basic

/-!
# HomCircuit.Proofs.Format

What a binary format promises of one value, and what its reader does with more bytes or with fewer.

```
read (write a ++ rest)          =  (a, rest)          the value reads back
read bs = (a, rest)      →  read (bs ++ more) = (a, rest ++ more)
read (a strict prefix of write a)  =  nothing           from the two
```

The second needs no value: a reader takes what it needs from the front and never looks further.
Texts and lists read back as long as their length fits the 64 bits that it is written in.

* `Format.ReadsBack`, `Format.Steady` — the two laws, with one lemma for each way to combine formats;
* `Format.Yields` — what is true of all that a reader can answer, in the same way;
* `Format.read_take_eq_none` — a value whose last bytes are missing is refused;
* `Partition.format_readsBack` — every partition reads back, as long as its name can.
-/

namespace HomCircuit

/-! ## bytes and numbers -/

/-- A number is told by its bytes. -/
theorem littleEndian_ofLittleEndian (bs : List UInt8) :
    littleEndian bs.length (ofLittleEndian bs) = bs := by
  induction bs with
  | nil => rfl
  | cons b bs ih =>
    have low : UInt8.ofNat (b.toNat + 256 * ofLittleEndian bs) = b := by
      refine UInt8.toNat_inj.mp ?_
      have := b.toNat_lt
      rw [UInt8.toNat_ofNat']
      omega
    have high : (b.toNat + 256 * ofLittleEndian bs) / 256 = ofLittleEndian bs := by
      have := b.toNat_lt
      omega
    rw [ofLittleEndian, List.length_cons, littleEndian, low, high, ih]

theorem ofLittleEndian_word64 (w : UInt64) : ofLittleEndian (UInt64.toBytes w) = w.toNat := by
  have size : 1 <<< (8 * 8) = UInt64.size := by decide
  rw [UInt64.toBytes, ofLittleEndian_littleEndian, size]
  exact Nat.mod_eq_of_lt w.toNat_lt

theorem ofLittleEndian_word32 (w : UInt32) : ofLittleEndian (UInt32.toBytes w) = w.toNat := by
  have size : 1 <<< (8 * 4) = UInt32.size := by decide
  rw [UInt32.toBytes, ofLittleEndian_littleEndian, size]
  exact Nat.mod_eq_of_lt w.toNat_lt

/-- Any eight bytes are those of a word. -/
theorem exists_word64 {bs : List UInt8} (h : bs.length = 8) : ∃ w, bs = UInt64.toBytes w := by
  have size : 1 <<< (8 * 8) = UInt64.size := by decide
  have below := ofLittleEndian_lt bs
  rw [h, size] at below
  refine ⟨UInt64.ofNat (ofLittleEndian bs), ?_⟩
  rw [UInt64.toBytes, UInt64.toNat_ofNat_of_lt' below, ← h, littleEndian_ofLittleEndian]

/-- Any four bytes are those of a word. -/
theorem exists_word32 {bs : List UInt8} (h : bs.length = 4) : ∃ w, bs = UInt32.toBytes w := by
  have size : 1 <<< (8 * 4) = UInt32.size := by decide
  have below := ofLittleEndian_lt bs
  rw [h, size] at below
  refine ⟨UInt32.ofNat (ofLittleEndian bs), ?_⟩
  rw [UInt32.toBytes, UInt32.toNat_ofNat_of_lt' below, ← h, littleEndian_ofLittleEndian]

/-- A text is told by its bytes. -/
theorem fromUTF8?_utf8Bytes (s : String) :
    String.fromUTF8? ⟨(utf8Bytes s).toArray⟩ = some s := by
  change String.fromUTF8? s.toByteArray = some s
  unfold String.fromUTF8?
  rw [dif_pos s.isValidUTF8]
  rfl

/-- Bytes that make a text are the text's. -/
theorem utf8Bytes_of_fromUTF8? {bs : List UInt8} {s : String}
    (h : String.fromUTF8? ⟨bs.toArray⟩ = some s) : utf8Bytes s = bs := by
  unfold String.fromUTF8? at h
  split at h
  · rw [← Option.some.inj h]
    rfl
  · contradiction

namespace Format

variable {α β : Type} {f : Format α} {g : Format β} {a : α} {b : β}

/-! ## reading back -/

/-- A value is read back from the front of whatever follows it. -/
def ReadsBack (f : Format α) (a : α) : Prop := ∀ rest, f.read (f.write a ++ rest) = some (a, rest)

theorem Exact.readsBack (h : f.Exact) (a : α) : f.ReadsBack a := h a

theorem splitExactly_eq_some_iff {n : Nat} {bs front rest : List UInt8} :
    splitExactly n bs = some (front, rest) ↔ bs = front ++ rest ∧ front.length = n := by
  constructor
  · intro split
    unfold splitExactly at split
    split at split
    · next long =>
        obtain ⟨rfl, rfl⟩ := Prod.mk.inj (Option.some.inj split)
        exact ⟨(List.take_append_drop n bs).symm, long⟩
    · contradiction
  · rintro ⟨rfl, rfl⟩
    simp [splitExactly]

theorem byte_exact : byte.Exact := fun _ _ => rfl

theorem word32_exact : word32.Exact := by
  intro w rest
  have split : splitExactly 4 (UInt32.toBytes w ++ rest) = some (UInt32.toBytes w, rest) :=
    splitExactly_eq_some_iff.mpr ⟨rfl, UInt32.length_toBytes w⟩
  simp only [word32, split, Option.map_some, ofLittleEndian_word32, UInt32.ofNat_toNat]

theorem word64_exact : word64.Exact := by
  intro w rest
  have split : splitExactly 8 (UInt64.toBytes w ++ rest) = some (UInt64.toBytes w, rest) :=
    splitExactly_eq_some_iff.mpr ⟨rfl, UInt64.length_toBytes w⟩
  simp only [word64, split, Option.map_some, ofLittleEndian_word64, UInt64.ofNat_toNat]

/-- Numbers are written by their bits, so that of not-a-number reads back as well. -/
theorem binary64_exact : binary64.Exact := by
  intro x rest
  simp only [binary64, word64_exact x.bits rest, Option.map_some]

theorem ReadsBack.pair (hf : f.ReadsBack a) (hg : g.ReadsBack b) : (f.pair g).ReadsBack (a, b) := by
  intro rest
  simp only [Format.pair, List.append_assoc, hf (g.write b ++ rest), hg rest, Option.map_some]

theorem ReadsBack.via {parts : β → α} {build : α → β} (h : f.ReadsBack (parts b))
    (whole : build (parts b) = b) : (f.via parts build).ReadsBack b := by
  intro rest
  simp only [Format.via, h rest, Option.map_some, whole]

/-- Members that read back do so in a row. -/
theorem readMany_flatMap {as : List α} (members : ∀ a ∈ as, f.ReadsBack a) (acc : List α)
    (rest : List UInt8) :
    readMany f as.length acc (as.flatMap f.write ++ rest) = some (acc.reverse ++ as, rest) := by
  induction as generalizing acc with
  | nil => simp [readMany]
  | cons a as ih =>
    obtain ⟨first, others⟩ := List.forall_mem_cons.mp members
    rw [List.flatMap_cons, List.append_assoc, List.length_cons, readMany, first]
    simp [ih others]

theorem ReadsBack.list {as : List α} (members : ∀ a ∈ as, f.ReadsBack a)
    (short : as.length < UInt64.size) : (Format.list f).ReadsBack as := by
  intro rest
  have length : (UInt64.ofNat as.length).toNat = as.length := UInt64.toNat_ofNat_of_lt' short
  simp only [Format.list, List.append_assoc, word64_exact (UInt64.ofNat as.length), length,
    readMany_flatMap members, List.reverse_nil, List.nil_append]

theorem ReadsBack.optional {o : Option α} (h : ∀ a, o = some a → f.ReadsBack a) :
    (Format.optional f).ReadsBack o := by
  intro rest
  cases o with
  | none => rfl
  | some a => simp only [Format.optional, List.cons_append, h a rfl rest, Option.map_some]

theorem constant_readsBack (a : α) : (constant a).ReadsBack a := fun _ => rfl

/-- A value of several cases reads back if it does in the format of its own. -/
theorem ReadsBack.tagged {tag : α → UInt32} {cases : UInt32 → Option (Format α)}
    (own : cases (tag a) = some f) (h : f.ReadsBack a) : (Format.tagged tag cases).ReadsBack a := by
  intro rest
  simp only [Format.tagged, own, Option.elim_some, List.append_assoc, word32_exact (tag a),
    Option.bind_eq_bind, Option.bind_some, h rest]

theorem ReadsBack.text {s : String} (short : (utf8Bytes s).length < UInt64.size) :
    Format.text.ReadsBack s := by
  intro rest
  have length : (UInt64.ofNat (utf8Bytes s).length).toNat = (utf8Bytes s).length :=
    UInt64.toNat_ofNat_of_lt' short
  have split : splitExactly (utf8Bytes s).length (utf8Bytes s ++ rest) = some (utf8Bytes s, rest) :=
    splitExactly_eq_some_iff.mpr ⟨rfl, rfl⟩
  simp only [Format.text, List.append_assoc, word64_exact (UInt64.ofNat (utf8Bytes s).length),
    length, split, fromUTF8?_utf8Bytes, Option.map_some]

/-! ## what can be read -/

/-- All that a reader answers satisfies a predicate, whatever it reads. -/
def Yields (f : Format α) (P : α → Prop) : Prop := ∀ bs a rest, f.read bs = some (a, rest) → P a

theorem yields_any (f : Format α) : f.Yields fun _ => True := fun _ _ _ _ => trivial

/-- What reads two values reads the one and then the other. -/
theorem exists_of_read_pair {bs rest : List UInt8} (h : (f.pair g).read bs = some ((a, b), rest)) :
    ∃ back, f.read bs = some (a, back) ∧ g.read back = some (b, rest) := by
  simp only [Format.pair] at h
  split at h
  · contradiction
  · next back first =>
      obtain ⟨⟨b, end'⟩, second, answer⟩ := Option.map_eq_some_iff.mp h
      obtain ⟨both, rfl⟩ := Prod.mk.inj answer
      obtain ⟨rfl, rfl⟩ := Prod.mk.inj both
      exact ⟨back, first, second⟩

/-- As many members are read as were asked for. -/
theorem length_of_readMany {n : Nat} {acc as : List α} {bs rest : List UInt8}
    (h : readMany f n acc bs = some (as, rest)) : as.length = acc.length + n := by
  induction n generalizing acc bs with
  | zero =>
    obtain ⟨rfl, -⟩ := Prod.mk.inj (Option.some.inj h)
    rw [List.length_reverse, Nat.add_zero]
  | succ n ih =>
    rw [readMany] at h
    split at h
    · contradiction
    · rw [ih h, List.length_cons]
      omega

/-- A list that is read is no longer than its length can say. -/
theorem length_of_read_list {as : List α} {bs rest : List UInt8}
    (h : (list f).read bs = some (as, rest)) : as.length < UInt64.size := by
  simp only [list] at h
  split at h
  · contradiction
  · next n _ _ =>
      rw [length_of_readMany h, List.length_nil, Nat.zero_add]
      exact n.toNat_lt

/-- A text that is read is no longer than its length can say. -/
theorem length_of_read_text {s : String} {bs rest : List UInt8}
    (h : text.read bs = some (s, rest)) : (utf8Bytes s).length < UInt64.size := by
  simp only [text] at h
  split at h
  · contradiction
  · next n _ _ =>
      split at h
      · contradiction
      · next front _ split =>
          obtain ⟨t, read, answer⟩ := Option.map_eq_some_iff.mp h
          obtain ⟨rfl, -⟩ := Prod.mk.inj answer
          rw [utf8Bytes_of_fromUTF8? read, (splitExactly_eq_some_iff.mp split).2]
          exact n.toNat_lt

section

variable {P Q : α → Prop} {R : β → Prop}

theorem text_yields : text.Yields fun s => (utf8Bytes s).length < UInt64.size :=
  fun _ _ _ => length_of_read_text

theorem constant_yields (h : P a) : (constant a).Yields P := by
  intro bs a' rest read
  obtain ⟨rfl, -⟩ := Prod.mk.inj (Option.some.inj read)
  exact h

theorem Yields.pair (hf : f.Yields P) (hg : g.Yields R) :
    (f.pair g).Yields fun p => P p.1 ∧ R p.2 := by
  intro bs ⟨a, b⟩ rest read
  obtain ⟨back, first, second⟩ := exists_of_read_pair read
  exact ⟨hf _ _ _ first, hg _ _ _ second⟩

theorem Yields.via (h : f.Yields P) (parts : β → α) {build : α → β} (kept : ∀ a, P a → R (build a)) :
    (f.via parts build).Yields R := by
  intro bs b rest read
  obtain ⟨⟨a, back⟩, inner, answer⟩ := Option.map_eq_some_iff.mp read
  obtain ⟨rfl, -⟩ := Prod.mk.inj answer
  exact kept a (h _ _ _ inner)

/-- Members that are read in a row satisfy what each of them does. -/
theorem forall_of_readMany (h : f.Yields P) {n : Nat} {acc as : List α} {bs rest : List UInt8}
    (read : readMany f n acc bs = some (as, rest)) (before : ∀ a ∈ acc, P a) : ∀ a ∈ as, P a := by
  induction n generalizing acc bs with
  | zero =>
    obtain ⟨rfl, -⟩ := Prod.mk.inj (Option.some.inj read)
    simpa using before
  | succ n ih =>
    rw [readMany] at read
    split at read
    · contradiction
    · next first => exact ih read (List.forall_mem_cons.mpr ⟨h _ _ _ first, before⟩)

theorem Yields.list (h : f.Yields P) :
    (Format.list f).Yields fun as => as.length < UInt64.size ∧ ∀ a ∈ as, P a := by
  intro bs as rest read
  refine ⟨length_of_read_list read, ?_⟩
  simp only [Format.list] at read
  split at read
  · contradiction
  · exact forall_of_readMany h read (by simp)

theorem Yields.optional (h : f.Yields P) : (Format.optional f).Yields fun o => ∀ a, o = some a → P a := by
  intro bs o rest read a present
  simp only [Format.optional] at read
  split at read
  · obtain ⟨rfl, -⟩ := Prod.mk.inj (Option.some.inj read)
    contradiction
  · obtain ⟨⟨b, back⟩, inner, answer⟩ := Option.map_eq_some_iff.mp read
    obtain ⟨rfl, -⟩ := Prod.mk.inj answer
    obtain rfl := Option.some.inj present
    exact h _ _ _ inner
  · contradiction

/-- A value of several cases satisfies what the formats of all cases yield. -/
theorem Yields.tagged {tag : α → UInt32} {cases : UInt32 → Option (Format α)}
    (each : ∀ t f, cases t = some f → f.Yields P) : (Format.tagged tag cases).Yields P := by
  intro bs a rest read
  simp only [Format.tagged] at read
  split at read
  · contradiction
  · obtain ⟨f, own, inner⟩ := Option.bind_eq_some_iff.mp read
    exact each _ f own _ _ _ inner

end

/-! ## readers that stop where they are done -/

/-- A reader that answers is not moved by further bytes, which it leaves where they are. -/
def Steady (f : Format α) : Prop :=
  ∀ bs a rest more, f.read bs = some (a, rest) → f.read (bs ++ more) = some (a, rest ++ more)

/-- A value whose last bytes are missing is refused: with them the reader would have to leave them
over, and it leaves nothing. -/
theorem read_take_eq_none (steady : f.Steady) (h : f.ReadsBack a) {n : Nat}
    (short : n < (f.write a).length) : f.read ((f.write a).take n) = none := by
  cases read : f.read ((f.write a).take n) with
  | none => rfl
  | some answer =>
    obtain ⟨a', rest⟩ := answer
    have further := steady _ _ _ ((f.write a).drop n) read
    have whole := h []
    rw [List.append_nil] at whole
    rw [List.take_append_drop, whole] at further
    have nothing := (List.nil_eq_append_iff.mp (Prod.mk.inj (Option.some.inj further)).2).2
    have left := congrArg List.length nothing
    rw [List.length_drop, List.length_nil] at left
    omega

theorem splitExactly_append {n : Nat} {bs front rest : List UInt8} (more : List UInt8)
    (h : splitExactly n bs = some (front, rest)) :
    splitExactly n (bs ++ more) = some (front, rest ++ more) := by
  obtain ⟨rfl, length⟩ := splitExactly_eq_some_iff.mp h
  exact splitExactly_eq_some_iff.mpr ⟨List.append_assoc front rest more, length⟩

theorem byte_steady : byte.Steady := by
  intro bs a rest more read
  cases bs with
  | nil => contradiction
  | cons b bs =>
    obtain ⟨rfl, rfl⟩ := Prod.mk.inj (Option.some.inj read)
    rfl

theorem word32_steady : word32.Steady := by
  intro bs w rest more read
  obtain ⟨⟨front, back⟩, split, answer⟩ := Option.map_eq_some_iff.mp read
  obtain ⟨rfl, rfl⟩ := Prod.mk.inj answer
  exact Option.map_eq_some_iff.mpr ⟨_, splitExactly_append more split, rfl⟩

theorem word64_steady : word64.Steady := by
  intro bs w rest more read
  obtain ⟨⟨front, back⟩, split, answer⟩ := Option.map_eq_some_iff.mp read
  obtain ⟨rfl, rfl⟩ := Prod.mk.inj answer
  exact Option.map_eq_some_iff.mpr ⟨_, splitExactly_append more split, rfl⟩

theorem binary64_steady : binary64.Steady := by
  intro bs x rest more read
  obtain ⟨⟨w, back⟩, word, answer⟩ := Option.map_eq_some_iff.mp read
  obtain ⟨rfl, rfl⟩ := Prod.mk.inj answer
  exact Option.map_eq_some_iff.mpr ⟨_, word64_steady _ _ _ more word, rfl⟩

theorem Steady.pair (hf : f.Steady) (hg : g.Steady) : (f.pair g).Steady := by
  intro bs ⟨a, b⟩ rest more read
  obtain ⟨back, first, second⟩ := exists_of_read_pair read
  simp only [Format.pair, hf _ _ _ more first, hg _ _ _ more second, Option.map_some]

theorem Steady.via (h : f.Steady) (parts : β → α) (build : α → β) : (f.via parts build).Steady := by
  intro bs b rest more read
  obtain ⟨⟨a, back⟩, inner, answer⟩ := Option.map_eq_some_iff.mp read
  obtain ⟨rfl, rfl⟩ := Prod.mk.inj answer
  exact Option.map_eq_some_iff.mpr ⟨_, h _ _ _ more inner, rfl⟩

theorem readMany_append (h : f.Steady) {n : Nat} {acc as : List α} {bs rest : List UInt8}
    (more : List UInt8) (read : readMany f n acc bs = some (as, rest)) :
    readMany f n acc (bs ++ more) = some (as, rest ++ more) := by
  induction n generalizing acc bs with
  | zero =>
    obtain ⟨rfl, rfl⟩ := Prod.mk.inj (Option.some.inj read)
    rfl
  | succ n ih =>
    rw [readMany] at read ⊢
    split at read
    · contradiction
    · next first =>
        simp only [h _ _ _ more first]
        exact ih read

theorem Steady.list (h : f.Steady) : (Format.list f).Steady := by
  intro bs as rest more read
  simp only [Format.list] at read ⊢
  split at read
  · contradiction
  · next length =>
      simp only [word64_steady _ _ _ more length]
      exact readMany_append h more read

theorem Steady.optional (h : f.Steady) : (Format.optional f).Steady := by
  intro bs o rest more read
  simp only [Format.optional] at read
  split at read
  · obtain ⟨rfl, rfl⟩ := Prod.mk.inj (Option.some.inj read)
    rfl
  · obtain ⟨⟨a, back⟩, inner, answer⟩ := Option.map_eq_some_iff.mp read
    obtain ⟨rfl, rfl⟩ := Prod.mk.inj answer
    simp only [Format.optional, List.cons_append, h _ _ _ more inner, Option.map_some]
  · contradiction

theorem constant_steady (a : α) : (constant a).Steady := by
  intro bs a' rest more read
  obtain ⟨rfl, rfl⟩ := Prod.mk.inj (Option.some.inj read)
  rfl

theorem Steady.tagged {tag : α → UInt32} {cases : UInt32 → Option (Format α)}
    (each : ∀ t f, cases t = some f → f.Steady) : (Format.tagged tag cases).Steady := by
  intro bs a rest more read
  simp only [Format.tagged] at read ⊢
  split at read
  · contradiction
  · next t back number =>
      obtain ⟨f, own, inner⟩ := Option.bind_eq_some_iff.mp read
      simp only [word32_steady _ _ _ more number, own, Option.bind_eq_bind, Option.bind_some]
      exact each t f own _ _ _ more inner

theorem text_steady : text.Steady := by
  intro bs s rest more read
  simp only [text] at read ⊢
  split at read
  · contradiction
  · next length =>
      split at read
      · contradiction
      · next split =>
          obtain ⟨t, bytes, answer⟩ := Option.map_eq_some_iff.mp read
          obtain ⟨rfl, rfl⟩ := Prod.mk.inj answer
          simp only [word64_steady _ _ _ more length, splitExactly_append more split, bytes,
            Option.map_some]

end Format

/-! ## partitions -/

theorem KeyChoice.format_exact : KeyChoice.format.Exact := by
  intro choice rest
  cases choice with
  | big => simp [KeyChoice.format, Format.word32_exact 0 rest]
  | small => simp [KeyChoice.format, Format.word32_exact 1 rest]

theorem KeyChoice.format_steady : KeyChoice.format.Steady := by
  intro bs choice rest more read
  simp only [KeyChoice.format] at read ⊢
  split at read
  · contradiction
  · next tag =>
      simp only [Format.word32_steady _ _ _ more tag]
      split at read
      · next big =>
          obtain ⟨rfl, rfl⟩ := Prod.mk.inj (Option.some.inj read)
          rw [if_pos big]
      · next other =>
          split at read
          · next small =>
              obtain ⟨rfl, rfl⟩ := Prod.mk.inj (Option.some.inj read)
              rw [if_neg other, if_pos small]
          · contradiction

theorem Decomposition.format_exact : Decomposition.format.Exact := by
  intro d
  have word32 := Format.word32_exact.readsBack
  exact Format.ReadsBack.via ((word32 d.baseLog).pair (word32 d.level)) rfl

theorem Decomposition.format_steady : Decomposition.format.Steady :=
  (Format.word32_steady.pair Format.word32_steady).via _ _

namespace Partition

/-- A partition reads back if its name does: all else has a fixed width. -/
theorem format_readsBack {p : Partition} (short : (utf8Bytes p.name).length < UInt64.size) :
    Partition.format.ReadsBack p := by
  have word64 := Format.word64_exact.readsBack
  have real := Format.binary64_exact.readsBack
  have gadget := Decomposition.format_exact.readsBack
  have dims := (word64 p.lweDim).pair ((word64 p.glweDim).pair (word64 p.polySize))
  have noise := (real p.lweNoise).pair (real p.glweNoise)
  have gadgets := (gadget p.bootstrap).pair (gadget p.keySwitch)
  have moduli := (word64 p.messageModulus).pair (word64 p.carryModulus)
  have limits := (Format.word32_exact.readsBack p.maxNoiseLevel).pair
    ((real p.log2FailureRate).pair (KeyChoice.format_exact.readsBack p.keyChoice))
  have name := Format.ReadsBack.text short
  unfold Partition.format
  refine Format.ReadsBack.via ?_ rfl
  exact name.pair (dims.pair (noise.pair (gadgets.pair (moduli.pair limits))))

theorem format_steady : Partition.format.Steady := by
  have word64 := Format.word64_steady
  have real := Format.binary64_steady
  have gadget := Decomposition.format_steady
  have limits := Format.word32_steady.pair (real.pair KeyChoice.format_steady)
  have moduli := word64.pair word64
  have gadgets := gadget.pair gadget
  have noise := real.pair real
  have dims := word64.pair (word64.pair word64)
  unfold Partition.format
  refine Format.Steady.via ?_ _ _
  exact Format.text_steady.pair (dims.pair (noise.pair (gadgets.pair (moduli.pair limits))))

/-- The name of a partition that is read is no longer than its length can say. -/
theorem length_name_of_read {p : Partition} {bs rest : List UInt8}
    (h : Partition.format.read bs = some (p, rest)) : (utf8Bytes p.name).length < UInt64.size := by
  obtain ⟨⟨⟨name, fields⟩, back⟩, read, answer⟩ := Option.map_eq_some_iff.mp h
  obtain ⟨rfl, -⟩ := Prod.mk.inj answer
  obtain ⟨_, first, -⟩ := Format.exists_of_read_pair read
  exact Format.length_of_read_text first

end Partition

end HomCircuit
