import HomCircuit.Proofs.Partition.Identity

/-!
# HomCircuit.Proofs.Partition.Numbering

The numbers of partitions over a whole run of registrations.

```
offers    P  Q  bad  P  P'  R          P' has other parameters under the name of P
answers   0  1  ✗    0  ✗   2
```

A partition is told apart by its name. The first valid one of a name gets the next number, an equal one
gets the same number again, and all others are refused and leave no trace.

* `Registry.firsts` — the first valid partitions of their names, in order;
* `Registry.Numbered` — a registry whose numbers are the places in that list;
* `Registry.registrations_number` — every run of registrations leaves such a registry, keeps all numbers
  that were given before, and this is what one more registration does.
-/

namespace HomCircuit

/-- The sign of a failure rate of zero is not checked. -/
theorem Partition.DifferInSign.valid {p q : Partition} (h : p.DifferInSign q) (valid : p.Valid) :
    q.Valid := by
  obtain ⟨zeros, rest⟩ := h
  have rate : q.log2FailureRate.le .zero = true := by
    rcases Binary64.eq_of_isOtherZero zeros with ⟨-, y⟩ | ⟨-, y⟩ <;> rw [y] <;> decide
  rw [← rest]
  unfold Valid fault? at valid ⊢
  simp only [Option.orElse_eq_orElse, Option.orElse_eq_or, Option.or_eq_none_iff] at valid ⊢
  obtain ⟨name, lwe, glwe, poly, power, dims, lweNoise, glweNoise, pbs, ks, message, carry, product,
    level, -⟩ := valid
  exact ⟨name, lwe, glwe, poly, power, dims, lweNoise, glweNoise, pbs, ks, message, carry, product,
    level, check_eq_none.mpr rate⟩

namespace Registry

variable {r : Registry} {p q q' : Partition} {id id' : PartitionId}

/-- The registry after some partitions were offered, one after the other. -/
def enrollAll (r : Registry) (offers : List Partition) : Registry :=
  offers.foldl (fun r p => (r.enroll p).2) r

/-- A partition is put behind others if it is valid, its name is new and there is a number left. -/
def keepFirst (kept : List Partition) (p : Partition) : List Partition :=
  if p.Valid ∧ (∀ q ∈ kept, q.name ≠ p.name) ∧ kept.length < UInt32.size then kept ++ [p] else kept

/-- The first valid partitions of their names, in order, as many as there are numbers. -/
def firsts (offers : List Partition) : List Partition := offers.foldl keepFirst []

/-! ## one registration -/

/-- A partition that compares equal to a known one is valid like that one. -/
theorem valid_of_same (valid : q.Valid) (same : q.same p = true) : p.Valid := by
  rcases valid.same_iff.mp same with rfl | sign
  · exact valid
  · exact sign.valid valid

/-- A partition that is known is answered with its number, and nothing changes. -/
theorem Sane.enroll_same (s : r.Sane) (there : r.get? id = some q) (same : q.same p = true) :
    r.enroll p = (.ok id, r) := by
  have valid := valid_of_same (s.valid q (mem_of_get? there)) same
  have named := Partition.name_eq_of_same same
  have enrolls := s.enrolls p
  generalize r.enroll p = enrolled at enrolls ⊢
  obtain ⟨answer, r'⟩ := enrolled
  cases enrolls with
  | invalid invalid =>
    rw [Partition.validate_eq_ok_iff.mpr valid] at invalid
    contradiction
  | known _ there' same' =>
    rw [s.id_eq there there' (named.trans (Partition.name_eq_of_same same').symm)]
  | other _ there' named' differs =>
    obtain rfl := s.eq_of_name there there' (named.trans named'.symm)
    rw [same] at differs
    contradiction
  | full _ fresh => exact absurd named (fresh q (mem_of_get? there))
  | new _ fresh => exact absurd named (fresh q (mem_of_get? there))

/-- A registration is refused for its parameters, for the partition that has its name, or when no number
is left. -/
theorem Sane.refuses_iff (s : r.Sane) (p : Partition) :
    (∃ e, (r.enroll p).1 = .error e) ↔
      ¬ p.Valid ∨ (∃ q ∈ r.partitions, q.name = p.name ∧ q.same p = false) ∨
        ((∀ q ∈ r.partitions, q.name ≠ p.name) ∧ r.size = UInt32.size) := by
  have enrolls := s.enrolls p
  generalize (r.enroll p).1 = answer, (r.enroll p).2 = r' at enrolls
  cases enrolls with
  | invalid invalid =>
    refine iff_of_true ⟨_, rfl⟩ (.inl fun valid => ?_)
    rw [Partition.validate_eq_ok_iff.mpr valid] at invalid
    contradiction
  | @known id q valid there same =>
    have named := Partition.name_eq_of_same same
    refine iff_of_false nofun ?_
    rintro (invalid | ⟨q', mem, named', differs⟩ | ⟨fresh, -⟩)
    · exact invalid valid
    · obtain ⟨id', there'⟩ := s.exists_id mem
      obtain rfl := s.eq_of_name there there' (named.trans named'.symm)
      rw [same] at differs
      contradiction
    · exact fresh q (mem_of_get? there) named
  | other valid there named differs =>
    exact iff_of_true ⟨_, rfl⟩ (.inr (.inl ⟨_, mem_of_get? there, named, differs⟩))
  | full valid fresh full => exact iff_of_true ⟨_, rfl⟩ (.inr (.inr ⟨fresh, full⟩))
  | new valid fresh room =>
    refine iff_of_false nofun ?_
    rintro (invalid | ⟨q', mem, named', -⟩ | ⟨-, full⟩)
    · exact invalid valid
    · exact fresh q' mem named'
    · exact absurd full (Nat.ne_of_lt room)

/-- Under the number that is answered stands a partition that compares equal. -/
theorem Sane.exists_get?_enroll (s : r.Sane) (answered : (r.enroll p).1 = .ok id) :
    ∃ q, (r.enroll p).2.get? id = some q ∧ q.same p = true := by
  obtain ⟨q, there, -, same⟩ := exists_get?_of_register s
    (register_eq_ok_iff.mpr (Prod.ext answered rfl))
  exact ⟨q, there, same⟩

/-- A refusal leaves the registry exactly as it was. -/
theorem Sane.enroll_refused (s : r.Sane) {e : KeyError} (refused : (r.enroll p).1 = .error e) :
    (r.enroll p).2 = r := by
  have enrolls := s.enrolls p
  generalize (r.enroll p).1 = answer, (r.enroll p).2 = r' at enrolls refused
  cases enrolls with
  | new => contradiction
  | _ => rfl

/-- What stands under a number stays there. -/
theorem Sane.get?_enroll (s : r.Sane) (p : Partition) (there : r.get? id = some q) :
    (r.enroll p).2.get? id = some q := by
  have enrolls := s.enrolls p
  generalize (r.enroll p).1 = answer, (r.enroll p).2 = r' at enrolls
  cases enrolls with
  | new valid fresh room =>
    have old := lt_size_of_get? there
    have apart : id ≠ r.next := by
      rintro rfl
      rw [toNat_next room] at old
      omega
    exact (get?_add room id).trans ((if_neg apart).trans there)
  | _ => exact there

/-- A registration puts the first valid partition of its name behind the others, and no other one. -/
theorem Sane.partitions_enroll (s : r.Sane) (p : Partition) :
    (r.enroll p).2.partitions.toList = keepFirst r.partitions.toList p := by
  have enrolls := s.enrolls p
  generalize (r.enroll p).1 = answer, (r.enroll p).2 = r' at enrolls
  unfold keepFirst
  simp only [Array.mem_toList_iff, Array.length_toList]
  cases enrolls with
  | invalid invalid =>
    rw [if_neg]
    rintro ⟨valid, -⟩
    rw [Partition.validate_eq_ok_iff.mpr valid] at invalid
    contradiction
  | known _ there same =>
    rw [if_neg]
    rintro ⟨-, fresh, -⟩
    exact fresh _ (mem_of_get? there) (Partition.name_eq_of_same same)
  | other _ there named =>
    rw [if_neg]
    rintro ⟨-, fresh, -⟩
    exact fresh _ (mem_of_get? there) named
  | full _ _ full =>
    rw [if_neg]
    rintro ⟨-, -, room⟩
    exact Nat.ne_of_lt room full
  | new valid fresh room =>
    rw [if_pos ⟨valid, fresh, room⟩]
    exact Array.toList_push ..

/-! ## views -/

/-- No two partitions go by one name. -/
theorem Sane.names_nodup (s : r.Sane) : (r.partitions.toList.map (·.name)).Nodup := by
  refine List.pairwise_map.mpr (List.pairwise_iff_getElem.mpr fun i j hi hj before named => ?_)
  rw [Array.length_toList] at hi hj
  have there (k : Nat) (inside : k < r.size) :
      r.get? ⟨UInt32.ofNat k⟩ = some r.partitions.toList[k] := by
    simp only [get?, toNat_ofNat_of_lt_size s inside]
    exact Array.getElem?_eq_getElem inside
  have same := s.id_eq (there i hi) (there j hj) named
  have same := congrArg (fun id : PartitionId => id.index.toNat) same
  simp only [toNat_ofNat_of_lt_size s hi, toNat_ofNat_of_lt_size s hj] at same
  omega

/-- The list of all partitions goes through the numbers in order. -/
theorem Sane.numbers_toList (s : r.Sane) : r.toList.map (·.1.index.toNat) = List.range r.size := by
  have each : ∀ x ∈ r.partitions.toList.zipIdx, (UInt32.ofNat x.2).toNat = x.2 := fun x mem =>
    toNat_ofNat_of_lt_size s (by simpa [Registry.size] using (List.mem_zipIdx mem).2.1)
  rw [toList, List.map_map]
  refine (List.map_congr_left each).trans ?_
  rw [List.zipIdx_map_snd, Array.length_toList, List.range_eq_range']
  rfl

/-- The list of all partitions has what stands under each number. -/
theorem Sane.mem_toList (s : r.Sane) : (id, q) ∈ r.toList ↔ r.get? id = some q := by
  simp only [toList, List.mem_map, get?]
  constructor
  · rintro ⟨⟨q', i⟩, mem, same⟩
    obtain ⟨rfl, rfl⟩ := Prod.mk.inj same
    have there := List.mem_zipIdx_iff_getElem?.mp mem
    have inside : i < r.size := by
      simpa [Registry.size] using (List.getElem?_eq_some_iff.mp there).1
    rw [toNat_ofNat_of_lt_size s inside]
    simpa using there
  · intro there
    refine ⟨(q, id.index.toNat), List.mem_zipIdx_iff_getElem?.mpr (by simpa using there), ?_⟩
    simp

/-! ## runs -/

/-- A registry that some offers have filled: its numbers are the places of the partitions that came
first, and names, numbers and the list of all agree. -/
structure Numbered (r : Registry) (offers : List Partition) : Prop where
  order : ∀ id, r.get? id = (firsts offers)[id.index.toNat]?
  size : r.size = (firsts offers).length
  valid : ∀ q ∈ r.partitions, q.Valid
  names_nodup : (r.partitions.toList.map (·.name)).Nodup
  inverse : ∀ name id, r.idOf? name = some id ↔ ∃ q, r.get? id = some q ∧ q.name = name
  numbers : r.toList.map (·.1.index.toNat) = List.range r.size
  listed : ∀ id q, (id, q) ∈ r.toList ↔ r.get? id = some q

theorem Sane.enrollAll (s : r.Sane) (offers : List Partition) : (r.enrollAll offers).Sane :=
  List.foldlRecOn (motive := Sane) offers _ s fun _ kept p _ => kept.enroll p

/-- What stands under a number stays there in a whole run. -/
theorem Sane.get?_enrollAll (s : r.Sane) (offers : List Partition) (there : r.get? id = some q) :
    (r.enrollAll offers).get? id = some q :=
  (List.foldlRecOn (motive := fun r' : Registry => r'.Sane ∧ r'.get? id = some q) offers _ ⟨s, there⟩
    fun _ kept p _ => ⟨kept.1.enroll p, kept.1.get?_enroll p kept.2⟩).2

/-- A run puts the first valid partitions of their names behind those that are there. -/
theorem Sane.partitions_enrollAll (s : r.Sane) (offers : List Partition) :
    (r.enrollAll offers).partitions.toList = offers.foldl keepFirst r.partitions.toList := by
  induction offers generalizing r with
  | nil => rfl
  | cons p offers ih =>
    rw [List.foldl_cons, ← s.partitions_enroll p]
    exact ih (s.enroll p)

theorem numbered_enrollAll (offers : List Partition) : (empty.enrollAll offers).Numbered offers := by
  have s := sane_empty.enrollAll offers
  have order : (empty.enrollAll offers).partitions.toList = firsts offers :=
    sane_empty.partitions_enrollAll offers
  exact
    { order := fun id => by rw [← order, get?, Array.getElem?_toList]
      size := by rw [← order, Array.length_toList, Registry.size]
      valid := s.valid
      names_nodup := s.names_nodup
      inverse := s.inverse
      numbers := s.numbers_toList
      listed := fun _ _ => s.mem_toList }

/-- Whatever is offered to an empty registry, numbers are the places of the partitions that came first
under their names, and names are inverse to them. Numbers keep their meaning in whatever is offered
later. Of what is offered next, a partition that equals a known one is answered with the number of that
one; what is refused is invalid, or differs from the partition of its name, or comes when all numbers
are given; and in neither case does anything change. Under a number that is answered stands an equal
partition. -/
theorem registrations_number (offers : List Partition) :
    let r := empty.enrollAll offers
    r.Numbered offers ∧
      (∀ later id q, r.get? id = some q → (r.enrollAll later).get? id = some q) ∧
      (∀ p id q, r.get? id = some q → q.same p = true → r.enroll p = (.ok id, r)) ∧
      ∀ p, (∀ id, (r.enroll p).1 = .ok id →
          ∃ q, (r.enroll p).2.get? id = some q ∧ q.same p = true) ∧
        ((∃ e, (r.enroll p).1 = .error e) ↔
          ¬ p.Valid ∨ (∃ q ∈ r.partitions, q.name = p.name ∧ q.same p = false) ∨
            ((∀ q ∈ r.partitions, q.name ≠ p.name) ∧ r.size = UInt32.size)) ∧
        ∀ e, (r.enroll p).1 = .error e → (r.enroll p).2 = r := by
  intro r
  have s : r.Sane := sane_empty.enrollAll offers
  exact ⟨numbered_enrollAll offers, fun later _ _ => s.get?_enrollAll later,
    fun _ _ _ => s.enroll_same,
    fun p => ⟨fun _ => s.exists_get?_enroll, s.refuses_iff p, fun _ => s.enroll_refused⟩⟩

end Registry

namespace SignedZero

/-- The partition with a failure rate of zero under another name. -/
def beside : Partition := { plus with name := "Q" }

/-- With a nameless partition and a larger one of the same name refused in between, the two names have
the first two numbers, the other zero is answered with the first, and the larger one stays refused. -/
theorem registrations_number_plus :
    let r := Registry.empty.enrollAll [plus, { plus with name := "" }, { plus with lweDim := 16 }, beside]
    r.get? ⟨0⟩ = some plus ∧ r.idOf? "Q" = some ⟨1⟩ ∧
      (r.enrollAll [{ plus with name := "R" }]).get? ⟨1⟩ = some beside ∧
      r.enroll minus = (.ok ⟨0⟩, r) ∧ (r.enroll { plus with lweDim := 16 }).2 = r := by
  intro r
  have run : r.get? ⟨0⟩ = some plus ∧ r.get? ⟨1⟩ = some beside ∧ plus.same minus = true ∧
      ∃ q ∈ r.partitions, q.name = "P" ∧ q.same { plus with lweDim := 16 } = false := by decide +kernel
  obtain ⟨first, second, same, refused⟩ := run
  obtain ⟨numbered, keeps, answers, refuses⟩ := Registry.registrations_number
    [plus, { plus with name := "" }, { plus with lweDim := 16 }, beside]
  obtain ⟨-, iff, unchanged⟩ := refuses { plus with lweDim := 16 }
  obtain ⟨e, error⟩ := iff.mpr (.inr (.inl refused))
  exact ⟨first, (numbered.inverse "Q" ⟨1⟩).mpr ⟨beside, second, rfl⟩, keeps _ _ _ second,
    answers minus ⟨0⟩ plus first same, unchanged e error⟩

end SignedZero

end HomCircuit
