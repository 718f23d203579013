import HomCircuit.Remote.Frame
import HomCircuit.Proofs.Key.Blob

/-!
# HomCircuit.Proofs.Remote.Frame

Messages come back from their bytes.

```
decode (encode f)                     =  f         exactly if 64 bits tell all lengths in f
decode (encode f ++ more)             =  f
decode (a strict prefix of encode f)  =  nothing
```

The three laws of formats are gone through along the members of a message and, where it has cases,
case by case.

* `Frame.Addressable` — the texts, tables and ciphertexts of a message are as long as can be told;
* `Frame.format_readsBack`, `Frame.format_steady`, `Frame.format_yields` — the laws for messages;
* `Frame.decodes_encoded` — what is made of the bytes of a message, with more bytes after them and with fewer.
-/

namespace HomCircuit

open Format (ReadsBack Steady Yields)

/-! ## operations -/

namespace Operation

/-- Whether a 64-bit number tells the length of an operation's table. -/
def Addressable (op : Operation) : Prop := op.table.length < UInt64.size

instance (op : Operation) : Decidable op.Addressable := inferInstanceAs (Decidable (_ < _))

theorem format_readsBack {op : Operation} (h : op.Addressable) : Operation.format.ReadsBack op := by
  cases op with
  | add => exact .tagged rfl (Format.constant_readsBack _)
  | sub => exact .tagged rfl (Format.constant_readsBack _)
  | neg => exact .tagged rfl (Format.constant_readsBack _)
  | addPlain c => exact .tagged rfl (.via (Format.word64_exact.readsBack c) rfl)
  | mulPlain c => exact .tagged rfl (.via (Format.word64_exact.readsBack c) rfl)
  | lookup t =>
    exact .tagged rfl (.via (.list (fun c _ => Format.word64_exact.readsBack c) h) rfl)
  | changePartition source =>
    exact .tagged rfl (.via (Format.word32_exact.readsBack source.index) rfl)
  | identity => exact .tagged rfl (Format.constant_readsBack _)

theorem format_steady : Operation.format.Steady := by
  refine .tagged fun t f own => ?_
  split_ifs at own <;> obtain rfl := Option.some.inj own
  · exact Format.constant_steady _
  · exact Format.constant_steady _
  · exact Format.constant_steady _
  · exact Format.word64_steady.via _ _
  · exact Format.word64_steady.via _ _
  · exact Format.word64_steady.list.via _ _
  · exact Format.word32_steady.via _ _
  · exact Format.constant_steady _

theorem format_yields : Operation.format.Yields Addressable := by
  have empty : ([] : List UInt64).length < UInt64.size := by decide
  refine .tagged fun t f own => ?_
  split_ifs at own <;> obtain rfl := Option.some.inj own
  · exact Format.constant_yields empty
  · exact Format.constant_yields empty
  · exact Format.constant_yields empty
  · exact (Format.yields_any _).via _ fun _ _ => empty
  · exact (Format.yields_any _).via _ fun _ _ => empty
  · exact (Format.yields_any _).list.via _ fun _ fits => fits.1
  · exact (Format.yields_any _).via _ fun _ _ => empty
  · exact Format.constant_yields empty

end Operation

/-! ## ciphertexts and partitions -/

/-- Whether a 64-bit number tells the length of a ciphertext. -/
def Ciphertext.Addressable (ct : Ciphertext) : Prop := ct.length < UInt64.size

instance (ct : Ciphertext) : Decidable ct.Addressable := inferInstanceAs (Decidable (_ < _))

theorem Ciphertext.format_readsBack {ct : Ciphertext} (h : ct.Addressable) :
    Ciphertext.format.ReadsBack ct :=
  .list (fun w _ => Format.word64_exact.readsBack w) h

theorem Ciphertext.format_steady : Ciphertext.format.Steady := Format.word64_steady.list

theorem Ciphertext.format_yields : Ciphertext.format.Yields Ciphertext.Addressable :=
  fun _ _ _ read => Format.length_of_read_list read

/-- Whether a 64-bit number tells the length of a partition's name. -/
def Partition.Addressable (p : Partition) : Prop := (utf8Bytes p.name).length < UInt64.size

instance (p : Partition) : Decidable p.Addressable := inferInstanceAs (Decidable (_ < _))

theorem Partition.format_yields : Partition.format.Yields Partition.Addressable :=
  fun _ _ _ => Partition.length_name_of_read

/-! ## requests -/

namespace DispatchFrame

/-- Whether 64-bit numbers tell all lengths in a request. -/
structure Addressable (d : DispatchFrame) : Prop where
  op : d.op.Addressable
  partition : d.partition.Addressable
  source : ∀ p, d.source = some p → p.Addressable
  inputs : d.inputs.length < UInt64.size ∧ ∀ ct ∈ d.inputs, ct.Addressable

theorem format_readsBack {d : DispatchFrame} (h : d.Addressable) : DispatchFrame.format.ReadsBack d := by
  have word64 := Format.word64_exact.readsBack
  have front := (word64 d.delivery).pair
    ((Format.word32_exact.readsBack d.node.index).pair (Operation.format_readsBack h.op))
  have source : (Format.optional Partition.format).ReadsBack d.source :=
    .optional fun p present => Partition.format_readsBack (h.source p present)
  have keys := (Partition.format_readsBack h.partition).pair
    (source.pair (KeySeed.format_exact.readsBack d.seed))
  have inputs : (Format.list Ciphertext.format).ReadsBack d.inputs :=
    .list (fun ct mem => Ciphertext.format_readsBack (h.inputs.2 ct mem)) h.inputs.1
  have load := inputs.pair (word64 d.nonce)
  unfold DispatchFrame.format
  exact .via (front.pair (keys.pair load)) rfl

theorem format_steady : DispatchFrame.format.Steady := by
  have front := Format.word64_steady.pair (Format.word32_steady.pair Operation.format_steady)
  have keys := Partition.format_steady.pair
    (Partition.format_steady.optional.pair KeySeed.format_steady)
  have load := Ciphertext.format_steady.list.pair Format.word64_steady
  unfold DispatchFrame.format
  exact (front.pair (keys.pair load)).via _ _

theorem format_yields : DispatchFrame.format.Yields Addressable := by
  have any := @Format.yields_any
  have front := (any Format.word64).pair ((any Format.word32).pair Operation.format_yields)
  have keys := Partition.format_yields.pair
    (Partition.format_yields.optional.pair (any KeySeed.format))
  have load := Ciphertext.format_yields.list.pair (any Format.word64)
  unfold DispatchFrame.format
  refine (front.pair (keys.pair load)).via _ ?_
  rintro ⟨⟨delivery, node, op⟩, ⟨partition, source, seed⟩, inputs, nonce⟩ fits
  exact ⟨fits.1.2.2, fits.2.1.1, fits.2.1.2.1, fits.2.2.1⟩

end DispatchFrame

/-! ## answers -/

namespace CompletionFrame

/-- Whether a 64-bit number tells the length of an answer. -/
def Addressable (c : CompletionFrame) : Prop :=
  match c.result with
  | .ok ct => ct.Addressable
  | .error e => (utf8Bytes e).length < UInt64.size

theorem format_readsBack {c : CompletionFrame} (h : c.Addressable) :
    CompletionFrame.format.ReadsBack c := by
  obtain ⟨delivery, node, result⟩ := c
  have result : resultFormat.ReadsBack result := by
    cases result with
    | ok ct => exact .tagged rfl (.via (Ciphertext.format_readsBack h) rfl)
    | error e => exact .tagged rfl (.via (ReadsBack.text h) rfl)
  have members := (Format.word64_exact.readsBack delivery).pair
    ((Format.word32_exact.readsBack node.index).pair result)
  exact .via members rfl

theorem resultFormat_steady : resultFormat.Steady := by
  refine .tagged fun t f own => ?_
  split_ifs at own <;> obtain rfl := Option.some.inj own
  · exact Ciphertext.format_steady.via _ _
  · exact Format.text_steady.via _ _

theorem format_steady : CompletionFrame.format.Steady :=
  (Format.word64_steady.pair (Format.word32_steady.pair resultFormat_steady)).via _ _

theorem format_yields : CompletionFrame.format.Yields Addressable := by
  have result : resultFormat.Yields fun r => Addressable { delivery := 0, node := ⟨0⟩, result := r } := by
    refine .tagged fun t f own => ?_
    split_ifs at own <;> obtain rfl := Option.some.inj own
    · exact Ciphertext.format_yields.via _ fun _ fits => fits
    · exact Format.text_yields.via _ fun _ fits => fits
  have members := (Format.yields_any Format.word64).pair ((Format.yields_any Format.word32).pair result)
  exact members.via _ fun _ fits => fits.2.2

end CompletionFrame

/-! ## messages -/

namespace Frame

/-- Whether 64-bit numbers tell all lengths in a message, as they do of all that fits into memory. -/
def Addressable : Frame → Prop
  | .dispatch d => d.Addressable
  | .completion c => c.Addressable
  | .shutdown => True

theorem format_readsBack {f : Frame} (h : f.Addressable) : Frame.format.ReadsBack f := by
  cases f with
  | dispatch d => exact .tagged rfl (.via (DispatchFrame.format_readsBack h) rfl)
  | completion c => exact .tagged rfl (.via (CompletionFrame.format_readsBack h) rfl)
  | shutdown => exact .tagged rfl (Format.constant_readsBack _)

theorem format_steady : Frame.format.Steady := by
  refine .tagged fun t f own => ?_
  split_ifs at own <;> obtain rfl := Option.some.inj own
  · exact DispatchFrame.format_steady.via _ _
  · exact CompletionFrame.format_steady.via _ _
  · exact Format.constant_steady _

theorem format_yields : Frame.format.Yields Addressable := by
  refine .tagged fun t f own => ?_
  split_ifs at own <;> obtain rfl := Option.some.inj own
  · exact DispatchFrame.format_yields.via _ fun _ fits => fits
  · exact CompletionFrame.format_yields.via _ fun _ fits => fits
  · exact Format.constant_yields trivial

/-- The message at the front of some bytes has lengths that can be told. -/
theorem addressable_of_decode? {f : Frame} {bytes : List UInt8} (h : decode? bytes = some f) :
    f.Addressable := by
  obtain ⟨⟨f', rest⟩, read, rfl⟩ := Option.map_eq_some_iff.mp h
  exact format_yields _ _ _ read

/-- A message is decoded from its bytes, whatever bytes follow. -/
theorem decode?_append {f : Frame} (h : f.Addressable) (more : List UInt8) :
    decode? (f.encode ++ more) = some f := by
  rw [decode?, encode, format_readsBack h more, Option.map_some]

/-- A message that has lost its last bytes is refused, however many they are. -/
theorem decode?_take {f : Frame} (h : f.Addressable) {n : Nat} (short : n < f.encode.length) :
    decode? (f.encode.take n) = none := by
  rw [decode?, encode, Format.read_take_eq_none format_steady (format_readsBack h) short,
    Option.map_none]

/-- A message is decoded from its own bytes exactly if its lengths can be told. It is then decoded from
them whatever bytes follow, and from no strict prefix of them. -/
theorem decodes_encoded (f : Frame) :
    (decode? f.encode = some f ↔ f.Addressable) ∧
      (f.Addressable →
        (∀ more, decode? (f.encode ++ more) = some f) ∧
          ∀ n < f.encode.length, decode? (f.encode.take n) = none) := by
  refine ⟨⟨addressable_of_decode?, fun fits => ?_⟩, fun fits => ⟨decode?_append fits, fun n => ?_⟩⟩
  · have whole := decode?_append fits []
    rwa [List.append_nil] at whole
  · exact decode?_take fits

/-- A change of partition with one input, one more byte after its bytes, and its bytes but the last. -/
theorem decodes_encoded_change :
    let f : Frame := .dispatch
      { delivery := 1, node := ⟨2⟩, op := .changePartition ⟨3⟩, partition := Collision.base
        source := some Collision.base, seed := default, inputs := [[4, 5]], nonce := 6 }
    let last := f.encode.length - 1
    (f.Addressable ∧ last < f.encode.length) ∧
      decode? f.encode = some f ∧ decode? (f.encode ++ [7]) = some f ∧
        decode? (f.encode.take last) = none := by
  intro f last
  have name : Collision.base.Addressable := by decide
  have fits : f.Addressable :=
    { op := by decide
      partition := name
      source := by
        rintro p present
        obtain rfl := Option.some.inj present
        exact name
      inputs := by
        refine ⟨by decide, fun ct mem => ?_⟩
        obtain rfl := List.mem_singleton.mp mem
        decide }
  have inside : last < f.encode.length := by decide +kernel
  obtain ⟨whole, further⟩ := decodes_encoded f
  obtain ⟨longer, shorter⟩ := further fits
  exact ⟨⟨fits, inside⟩, whole.mpr fits, longer [7], shorter last inside⟩

end Frame

end HomCircuit
