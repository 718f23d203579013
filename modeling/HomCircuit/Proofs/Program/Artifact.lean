import HomCircuit.Proofs.Json.Reader
import HomCircuit.Proofs.Json.Record
import HomCircuit.Program.Artifact

/-!
# HomCircuit.Proofs.Program.Artifact

The text of an artifact is read as that artifact.

```
parse? a.print = some a     ↔     each real number of a has the value of its literal
```

Names may be any texts, constants and table entries any 64-bit numbers. Only a real number may be lost on
the way: its literal is the shortest one, but it is read by scaling, which is exact for most literals and
not for all.

* `PartitionEntry.declared`, `NodeEntry.declared` and so on — the fields of each record, those that are
  not set left open;
* `Binary64.ReadsBack` — a real number that has the value of its literal;
* `Artifact.parses_printed` — the round trip.
-/

namespace HomCircuit

open Json (Writable)
open Json.Record

/-- The literal that a document has for a number is read as that number. -/
def Binary64.ReadsBack (x : Binary64) : Prop :=
  (Decimal.documentLiteral? x).bind Decimal.Literal.toBinary64? = some x

instance (x : Binary64) : Decidable x.ReadsBack := inferInstanceAs (Decidable (_ = _))

/-- What is no real number has no literal. -/
theorem Binary64.ReadsBack.isFinite {x : Binary64} (h : x.ReadsBack) : x.isFinite = true := by
  cases finite : x.isFinite with
  | true => rfl
  | false =>
    have none : Decimal.documentLiteral? x = none := by simp [Decimal.documentLiteral?, finite]
    rw [Binary64.ReadsBack, none] at h
    contradiction

/-! ## what stands in the fields -/

theorem word64?_natJson (w : UInt64) : word64? (natJson w.toNat) = some w := by
  rw [word64?, natJson, exactNat?_nat w.toNat_lt, Option.map_some, UInt64.ofNat_toNat]

theorem word32?_natJson (w : UInt32) : word32? (natJson w.toNat) = some w := by
  rw [word32?, natJson, exactNat?_nat w.toNat_lt, Option.map_some, UInt32.ofNat_toNat]

theorem words64_read (ws : List UInt64) :
    items? word64? (.array (ws.map fun w => natJson w.toNat)) = some ws :=
  (items?_map_eq_some_iff ws).mpr fun w _ => word64?_natJson w

theorem words32_read (ws : List UInt32) :
    items? word32? (.array (ws.map fun w => natJson w.toNat)) = some ws :=
  (items?_map_eq_some_iff ws).mpr fun w _ => word32?_natJson w

theorem member_eq {α : Type} (key : String) (write : α → Json) (v : Option α) :
    member key write v = (v.map write).toList.map (key, ·) := by
  cases v <;> rfl

/-- A real number is read back from a field exactly if it has the value of its literal. -/
theorem defaulted_realJson (v : Option Binary64) :
    defaulted real? (v.map realJson) = some v ↔ ∀ x ∈ v, x.ReadsBack := by
  cases v with
  | none => simp [defaulted]
  | some x =>
    simp only [Option.map_some, Option.mem_def, Option.some.injEq, forall_eq', realJson,
      Binary64.ReadsBack]
    cases Decimal.documentLiteral? x with
    | none => simp [defaulted]
    | some l => simp [defaulted, real?]

theorem decompositionOf?_decompositionJson (d : Decomposition) :
    decompositionOf? (decompositionJson d) = some d := by
  simp [decompositionOf?, decompositionJson, pair?, word32?_natJson]

theorem keyChoiceOf?_keyChoiceJson (c : KeyChoice) : keyChoiceOf? (keyChoiceJson c) = some c := by
  cases c <;> rfl

/-! ## partitions -/

/-- The fields of a partition. -/
def PartitionEntry.declared (p : PartitionEntry) : List (String × Option Json) :=
  [("name", some (.text p.name)), ("lwe_dim", some (natJson p.lweDim.toNat)),
    ("glwe_dim", some (natJson p.glweDim.toNat)), ("poly_size", some (natJson p.polySize.toNat)),
    ("lwe_noise_std_dev", p.lweNoise.map realJson), ("glwe_noise_std_dev", p.glweNoise.map realJson),
    ("pbs_decomposition", p.bootstrap.map decompositionJson),
    ("ks_decomposition", p.keySwitch.map decompositionJson),
    ("message_modulus", p.messageModulus.map fun m : UInt64 => natJson m.toNat),
    ("carry_modulus", p.carryModulus.map fun m : UInt64 => natJson m.toNat),
    ("encryption_key_choice", p.keyChoice.map keyChoiceJson)]

/-- The real numbers of a partition. -/
def PartitionEntry.reals (p : PartitionEntry) : List Binary64 :=
  p.lweNoise.toList ++ p.glweNoise.toList

theorem PartitionEntry.toJson_eq (p : PartitionEntry) : p.toJson = .record (written p.declared) := by
  simp [toJson, written, declared, member_eq]

/-- Of a partition that was written, all but its real numbers stand fixed. -/
theorem PartitionEntry.ofJson?_declared (p : PartitionEntry) : ofJson? p.toJson =
    (defaulted real? (p.lweNoise.map realJson)).bind fun lwe =>
      (defaulted real? (p.glweNoise.map realJson)).bind fun glwe =>
        some { p with lweNoise := lwe, glweNoise := glwe } := by
  have fields := fields?_written p.declared (by simp [declared])
  simp only [declared, List.map_cons, List.map_nil] at fields
  have pairs (d : Option Decomposition) := defaulted_map d decompositionOf?_decompositionJson nofun
  have words (m : Option UInt64) := defaulted_map m word64?_natJson nofun
  have choice := defaulted_map p.keyChoice keyChoiceOf?_keyChoiceJson (by rintro (_ | _) <;> nofun)
  rw [toJson_eq, ofJson?, declared, fields]
  -- all fields are found, and what is left is to read one after the other
  change (text? (.text p.name)).bind (fun _ => _) = _
  simp only [Option.bind_eq_bind, Option.bind_some, required, text?, Json.text, word64?_natJson,
    pairs, words, choice]

/-- A partition is read back exactly if its real numbers have the values of their literals. -/
theorem PartitionEntry.ofJson?_toJson (p : PartitionEntry) :
    ofJson? p.toJson = some p ↔ ∀ x ∈ p.reals, x.ReadsBack := by
  have reals : (∀ x ∈ p.reals, x.ReadsBack) ↔
      (∀ x ∈ p.lweNoise, x.ReadsBack) ∧ ∀ x ∈ p.glweNoise, x.ReadsBack := by
    simp [PartitionEntry.reals, or_imp, forall_and]
  rw [reals, ← defaulted_realJson, ← defaulted_realJson, p.ofJson?_declared]
  simp only [Option.bind_eq_some_iff, Option.some.injEq]
  constructor
  · rintro ⟨lwe, readLwe, glwe, readGlwe, same⟩
    have lweSame : lwe = p.lweNoise := congrArg PartitionEntry.lweNoise same
    have glweSame : glwe = p.glweNoise := congrArg PartitionEntry.glweNoise same
    exact ⟨lweSame ▸ readLwe, glweSame ▸ readGlwe⟩
  · rintro ⟨readLwe, readGlwe⟩
    exact ⟨_, readLwe, _, readGlwe, rfl⟩

/-! ## operations -/

namespace OperationEntry

theorem isProper_toJson (op : OperationEntry) : op.toJson.isProper = true := by
  have word (w : UInt64) : (natJson w.toNat).isProper = true := isProper_nat w.toNat_lt
  cases op with
  | addPlain c | mulPlain c =>
    simp [toJson, members, Json.record, Json.isProper, Json.fieldsProper, Json.text, word]
  | lookup t =>
    have table : Json.areProper (t.map fun c => natJson c.toNat) = true := by
      simp [areProper_iff, word]
    simp [toJson, members, Json.record, Json.isProper, Json.fieldsProper, Json.text, table]
  | _ => rfl

theorem depth_toJson (op : OperationEntry) : op.toJson.depth ≤ 2 := by
  cases op with
  | lookup t =>
    have table : Json.itemsDepth (t.map fun c => natJson c.toNat) ≤ 0 :=
      itemsDepth_le (by simp [natJson, Json.nat, Json.depth])
    have depth : (OperationEntry.lookup t).toJson.depth =
        max 0 (max (Json.itemsDepth (t.map fun c => natJson c.toNat) + 1) 0) + 1 := rfl
    omega
  | _ => exact Nat.le_of_ble_eq_true rfl

theorem splitKind?_toJson (op : OperationEntry) :
    splitKind? op.toJson = some (op.kind, .record op.members) := by
  cases op <;> rfl

theorem constant?_record {α : Type} (key : String) (read : Json → Option α) (v : Json) :
    constant? key read (.record [(key, v)]) = read v := by
  have fields : fields? [key] (.record [(key, v)]) = some [some v] :=
    fields?_written [(key, some v)] (List.nodup_singleton key)
  rw [constant?, fields]
  rfl

theorem ofJson?_toJson (op : OperationEntry) : ofJson? op.toJson = some op := by
  have shallow : ¬ operationDepth < op.toJson.depth :=
    Nat.not_lt.mpr (Nat.le_trans op.depth_toJson (by decide))
  simp only [ofJson?, isProper_toJson, shallow, splitKind?_toJson, Bool.not_true, decide_false,
    Bool.or_false, Bool.false_eq_true, if_false, Option.bind_eq_bind, Option.bind_some]
  cases op with
  | addPlain c | mulPlain c =>
    simp only [kind, members, constant?_record, word64?_natJson, Option.map_some]
  | lookup t =>
    simp only [kind, members, constant?_record, words64_read, Option.map_some]
  | changePartition source =>
    simp only [kind, members, constant?_record, Json.text, text?, Option.map_some]
  | _ => rfl

end OperationEntry

/-! ## arguments, nodes and artifacts -/

/-- The fields of an argument. -/
def InputEntry.declared (i : InputEntry) : List (String × Option Json) :=
  [("value", some (natJson i.value.toNat)), ("partition", some (.text i.partition))]

theorem InputEntry.ofJson?_toJson (i : InputEntry) : ofJson? i.toJson = some i := by
  have fields := fields?_written i.declared (by simp [declared])
  simp only [declared, List.map_cons, List.map_nil] at fields
  have same : i.toJson = .record (written i.declared) := rfl
  rw [same, ofJson?, declared, fields]
  simp only [Option.bind_eq_bind, Option.bind_some, required, text?, Json.text, word32?_natJson]

/-- The fields of a node. -/
def NodeEntry.declared (n : NodeEntry) : List (String × Option Json) :=
  [("id", some (natJson n.id.toNat)), ("op", some n.op.toJson),
    ("inputs", some (.array (n.inputs.map fun v => natJson v.toNat))),
    ("output", some (natJson n.output.toNat)), ("partition", some (.text n.partition)),
    ("accelerator_eligible", n.eligible.map .bool)]

theorem NodeEntry.toJson_eq (n : NodeEntry) : n.toJson = .record (written n.declared) := by
  simp [toJson, written, declared, member_eq]

theorem NodeEntry.ofJson?_toJson (n : NodeEntry) : ofJson? n.toJson = some n := by
  have fields := fields?_written n.declared (by simp [declared])
  simp only [declared, List.map_cons, List.map_nil] at fields
  have eligible : defaulted bool? (n.eligible.map .bool) = some n.eligible :=
    defaulted_map n.eligible (fun _ => rfl) nofun
  rw [toJson_eq, ofJson?, declared, fields]
  simp only [Option.bind_eq_bind, Option.bind_some, required, text?, Json.text, word32?_natJson,
    words32_read, n.op.ofJson?_toJson, eligible]

/-- The fields of an artifact. -/
def Artifact.declared (a : Artifact) : List (String × Option Json) :=
  [("name", some (.text a.name)), ("partitions", some (.array (a.partitions.map (·.toJson)))),
    ("inputs", some (.array (a.inputs.map (·.toJson)))),
    ("outputs", some (.array (a.outputs.map fun v => natJson v.toNat))),
    ("nodes", some (.array (a.nodes.map (·.toJson))))]

theorem Artifact.ofJson?_toJson (a : Artifact) :
    ofJson? a.toJson = some a ↔ ∀ p ∈ a.partitions, ∀ x ∈ p.reals, x.ReadsBack := by
  have fields := fields?_written a.declared (by simp [declared])
  simp only [declared, List.map_cons, List.map_nil] at fields
  have inputs : items? InputEntry.ofJson? (.array (a.inputs.map (·.toJson))) = some a.inputs :=
    (items?_map_eq_some_iff a.inputs).mpr fun i _ => i.ofJson?_toJson
  have nodes : items? NodeEntry.ofJson? (.array (a.nodes.map (·.toJson))) = some a.nodes :=
    (items?_map_eq_some_iff a.nodes).mpr fun n _ => n.ofJson?_toJson
  have partitions : items? PartitionEntry.ofJson? (.array (a.partitions.map (·.toJson))) =
      some a.partitions ↔ ∀ p ∈ a.partitions, ∀ x ∈ p.reals, x.ReadsBack := by
    simp only [items?_map_eq_some_iff, PartitionEntry.ofJson?_toJson]
  have same : a.toJson = .record (written a.declared) := rfl
  rw [← partitions, same, ofJson?, declared, fields]
  simp only [Option.bind_eq_bind, Option.bind_some, required, text?, Json.text, inputs, words32_read,
    nodes, Option.bind_eq_some_iff, Option.some.injEq]
  constructor
  · rintro ⟨entries, read, same⟩
    have entriesSame : entries = a.partitions := congrArg Artifact.partitions same
    exact entriesSame ▸ read
  · intro read
    exact ⟨_, read, rfl⟩

/-! ## texts -/

/-- A record can be written if what is set of its fields can. -/
theorem writable_written {declared : List (String × Option Json)}
    (each : ∀ d ∈ declared, ∀ j ∈ d.2, Writable j) : Writable (.record (written declared)) := by
  refine .record fun f mem => ?_
  obtain ⟨d, there, mem⟩ := List.mem_flatMap.mp mem
  obtain ⟨j, set, rfl⟩ := List.mem_map.mp mem
  exact each d there j (Option.mem_toList.mp set)

theorem writable_map {α : Type} {write : α → Json} (each : ∀ a, Writable (write a)) (as : List α) :
    Writable (.array (as.map write)) :=
  .array fun j mem => by
    obtain ⟨a, -, rfl⟩ := List.mem_map.mp mem
    exact each a

theorem writable_natJson (n : Nat) : Writable (natJson n) :=
  .number (Decimal.Literal.sound_ofNat n)

theorem writable_realJson (x : Binary64) : Writable (realJson x) := by
  unfold realJson
  split
  · next written => exact .number (Decimal.sound_of_documentLiteral? written)
  · exact .null

theorem writable_decompositionJson (d : Decomposition) : Writable (decompositionJson d) :=
  .array (by simp [writable_natJson])

theorem PartitionEntry.writable (p : PartitionEntry) : Writable p.toJson := by
  rw [toJson_eq]
  refine writable_written ?_
  have choice (c : KeyChoice) : Writable (keyChoiceJson c) := by cases c <;> exact .text _
  simp [declared, writable_natJson, writable_realJson, writable_decompositionJson, choice, Writable.text]

theorem OperationEntry.writable (op : OperationEntry) : Writable op.toJson := by
  refine .record ?_
  cases op <;>
    simp [members, writable_natJson, Writable.text, writable_map]

theorem InputEntry.writable (i : InputEntry) : Writable i.toJson :=
  .record (by simp [writable_natJson, Writable.text])

theorem NodeEntry.writable (n : NodeEntry) : Writable n.toJson := by
  rw [toJson_eq]
  refine writable_written ?_
  cases eligible : n.eligible <;>
    simp [declared, eligible, writable_natJson, Writable.text, writable_map, n.op.writable, Writable.bool]

theorem Artifact.writable (a : Artifact) : Writable a.toJson :=
  .record (by simp [writable_natJson, Writable.text, writable_map, PartitionEntry.writable,
    InputEntry.writable, NodeEntry.writable])

/-- The text of an artifact is read as its document, and as the artifact exactly if each real number in
it has the value of its literal: names, constants, table entries and operations of any kind are never
lost. In the document stands each field that is set, and no other one. -/
theorem Artifact.parses_printed (a : Artifact) :
    Json.parse? a.print = some a.toJson ∧
      (∀ p ∈ a.partitions, p.toJson = .record (written p.declared)) ∧
      (∀ n ∈ a.nodes, n.toJson = .record (written n.declared)) ∧
      (parse? a.print = some a ↔ ∀ p ∈ a.partitions, ∀ x ∈ p.reals, x.ReadsBack) := by
  have document : Json.parse? a.print = some a.toJson := a.writable.parse?_render
  refine ⟨document, fun p _ => p.toJson_eq, fun n _ => n.toJson_eq, ?_⟩
  rw [parse?, document]
  exact a.ofJson?_toJson

/-- For `2.4928594131408962e+54`, its lower neighbour is read. -/
example : ¬ Binary64.ReadsBack ⟨0x4b3a06d3a06d2f20⟩ := by decide +kernel

end HomCircuit
