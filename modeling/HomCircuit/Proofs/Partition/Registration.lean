import Mathlib
import HomCircuit.Partition.Registry

/-!
# HomCircuit.Proofs.Partition.Registration

What registration keeps: the partitions of a registry are valid, each stands under a number of its
own, and each name stands for the number of the partition that goes by it.

```
idOf? name = id   ↔   get? id = q  for a partition q of that name
```

* `Registry.Sane` — a registry that registrations alone have filled;
* `Registry.Enrolls`, `Registry.Sane.enrolls` — all that a registration can do, told by the partitions;
* `Registry.Sane.enroll`, `Registry.sane_empty` — there are no other registries;
* `Registry.Sane.distinct` — names tell partitions apart;
* `Registry.Sane.exists_get?` — a name that is found has a partition.
-/

namespace HomCircuit

theorem Partition.name_eq_of_same {p q : Partition} (h : p.same q = true) : p.name = q.name := by
  simp only [Partition.same, Bool.and_eq_true, beq_iff_eq] at h
  exact h.1.1.1.1.1.1.1.1.1.1.1.1

namespace Registry

variable {r r' : Registry} {p q q' : Partition} {id id' : PartitionId} {name : String}

/-- No two partitions go by the same name. -/
def Distinct (r : Registry) : Prop :=
  ∀ q ∈ r.partitions, ∀ q' ∈ r.partitions, q.name = q'.name → q = q'

/-- A registry that registrations have filled. -/
structure Sane (r : Registry) : Prop where
  valid : ∀ q ∈ r.partitions, q.Valid
  /-- Names and numbers are inverse to each other. -/
  inverse : ∀ name id, r.idOf? name = some id ↔ ∃ q, r.get? id = some q ∧ q.name = name
  /-- Every place has a number. -/
  size_le : r.size ≤ UInt32.size

theorem sane_empty : empty.Sane where
  valid q mem := by simp [empty] at mem
  inverse name id := by simp [empty, idOf?, get?]
  size_le := by decide

theorem mem_of_get? {r : Registry} {id : PartitionId} {q : Partition} (h : r.get? id = some q) :
    q ∈ r.partitions :=
  Array.mem_of_getElem? h

theorem lt_size_of_get? (h : r.get? id = some q) : id.index.toNat < r.size :=
  (Array.getElem?_eq_some_iff.mp h).1

/-- The number of every place is a number of its own. -/
theorem toNat_ofNat_of_lt_size (s : r.Sane) {i : Nat} (inside : i < r.size) :
    (UInt32.ofNat i).toNat = i :=
  UInt32.toNat_ofNat_of_lt' (Nat.lt_of_lt_of_le inside s.size_le)

/-- Every partition has a number. -/
theorem Sane.exists_id (s : r.Sane) (mem : q ∈ r.partitions) : ∃ id, r.get? id = some q := by
  obtain ⟨i, inside, rfl⟩ := Array.mem_iff_getElem.mp mem
  refine ⟨⟨UInt32.ofNat i⟩, ?_⟩
  simp only [get?, toNat_ofNat_of_lt_size s inside]
  exact Array.getElem?_eq_getElem inside

/-- The partition under a name that is found. -/
theorem Sane.exists_get? {r : Registry} (s : r.Sane) {name : String} {id : PartitionId}
    (h : r.idOf? name = some id) : ∃ q, r.get? id = some q := by
  obtain ⟨q, there, -⟩ := (s.inverse name id).mp h
  exact ⟨q, there⟩

/-- A name has one number. -/
theorem Sane.id_eq (s : r.Sane) (there : r.get? id = some q) (there' : r.get? id' = some q')
    (named : q.name = q'.name) : id = id' := by
  have found := (s.inverse q.name id).mpr ⟨q, there, rfl⟩
  rw [(s.inverse q.name id').mpr ⟨q', there', named.symm⟩] at found
  exact (Option.some.inj found).symm

theorem Sane.eq_of_name (s : r.Sane) (there : r.get? id = some q) (there' : r.get? id' = some q')
    (named : q.name = q'.name) : q = q' := by
  obtain rfl := s.id_eq there there' named
  exact Option.some.inj (there.symm.trans there')

theorem Sane.distinct (s : r.Sane) : r.Distinct := by
  intro q mem q' mem' named
  obtain ⟨id, there⟩ := s.exists_id mem
  obtain ⟨id', there'⟩ := s.exists_id mem'
  exact s.eq_of_name there there' named

/-- A name is not found exactly if no partition goes by it. -/
theorem Sane.idOf?_eq_none_iff (s : r.Sane) :
    r.idOf? name = none ↔ ∀ q ∈ r.partitions, q.name ≠ name := by
  constructor
  · rintro missing q mem rfl
    obtain ⟨id, there⟩ := s.exists_id mem
    rw [(s.inverse q.name id).mpr ⟨q, there, rfl⟩] at missing
    contradiction
  · intro apart
    refine Option.eq_none_iff_forall_ne_some.mpr fun id found => ?_
    obtain ⟨q, there, named⟩ := (s.inverse name id).mp found
    exact apart q (mem_of_get? there) named

/-! ## one more partition -/

theorem toNat_next (room : r.size < UInt32.size) : r.next.index.toNat = r.size :=
  UInt32.toNat_ofNat_of_lt' room

theorem idOf?_add (r : Registry) (p : Partition) (name : String) :
    (r.add p).idOf? name = if name = p.name then some r.next else r.idOf? name := by
  by_cases same : name = p.name
  · simp [idOf?, add, same]
  · simp [idOf?, add, List.lookup_cons, same, beq_eq_false_iff_ne.mpr same]

theorem get?_add (room : r.size < UInt32.size) (id : PartitionId) :
    (r.add p).get? id = if id = r.next then some p else r.get? id := by
  have place : id = r.next ↔ id.index.toNat = r.size := by
    rw [← toNat_next room, UInt32.toNat_inj]
    exact ⟨fun same => same ▸ rfl, fun same => by cases id; exact congrArg PartitionId.mk same⟩
  simp only [get?, add, Array.getElem?_push, place]
  rfl

/-- A partition of a new name keeps a registry sane. -/
theorem Sane.add (s : r.Sane) (valid : p.Valid) (fresh : ∀ q ∈ r.partitions, q.name ≠ p.name)
    (room : r.size < UInt32.size) : (r.add p).Sane where
  valid q mem := by
    rcases Array.mem_push.mp mem with old | rfl
    · exact s.valid q old
    · exact valid
  inverse name id := by
    have unused : ∀ q, r.get? r.next = some q → False := fun q there => by
      have := lt_size_of_get? there
      rw [toNat_next room] at this
      omega
    rw [idOf?_add, get?_add room]
    by_cases new : name = p.name <;> by_cases last : id = r.next
    · simp [new, last]
    · simp only [new, last, if_true, if_false, Option.some.injEq, Ne.symm last, false_iff]
      rintro ⟨q, there, named⟩
      exact fresh q (mem_of_get? there) named
    · simp only [new, last, if_true, if_false, Option.some.injEq]
      constructor
      · intro found
        obtain ⟨q, there, -⟩ := (s.inverse name r.next).mp found
        exact absurd there (unused q)
      · rintro ⟨q, rfl, named⟩
        exact absurd named.symm new
    · simp only [new, last, if_false]
      exact s.inverse name id
  size_le := by
    simp only [size, Registry.add, Array.size_push]
    exact room

/-! ## registration -/

/-- What a registration does to a registry, told by the partitions that stand in it. -/
inductive Enrolls (r : Registry) (p : Partition) : Except KeyError PartitionId → Registry → Prop
  | invalid {e : KeyError} (invalid : p.validate = .error e) : Enrolls r p (.error e) r
  | known {id : PartitionId} {q : Partition} (valid : p.Valid) (there : r.get? id = some q)
      (same : q.same p = true) : Enrolls r p (.ok id) r
  | other {id : PartitionId} {q : Partition} (valid : p.Valid) (there : r.get? id = some q)
      (named : q.name = p.name) (differs : q.same p = false) :
      Enrolls r p (.error (.invalidPartition p.name "already registered with different parameters")) r
  | full (valid : p.Valid) (fresh : ∀ q ∈ r.partitions, q.name ≠ p.name)
      (full : r.size = UInt32.size) :
      Enrolls r p (.error (.invalidPartition p.name "partition registry is full")) r
  | new (valid : p.Valid) (fresh : ∀ q ∈ r.partitions, q.name ≠ p.name)
      (room : r.size < UInt32.size) : Enrolls r p (.ok r.next) (r.add p)

/-- All that a registration can do. -/
theorem Sane.enrolls (s : r.Sane) (p : Partition) : r.Enrolls p (r.enroll p).1 (r.enroll p).2 := by
  unfold Registry.enroll
  split
  · next invalid => exact .invalid invalid
  · next valid =>
      have valid := Partition.validate_eq_ok_iff.mp valid
      split
      · next id found =>
          obtain ⟨q, there, named⟩ := (s.inverse p.name id).mp found
          rw [there, Option.any_some]
          split
          · next same => exact .known valid there same
          · next differs => exact .other valid there named (Bool.eq_false_iff.mpr differs)
      · next missing =>
          have fresh := s.idOf?_eq_none_iff.mp missing
          split
          · next room => exact .new valid fresh room
          · next none_left => exact .full valid fresh (Nat.le_antisymm s.size_le (Nat.not_lt.mp none_left))

/-- Registration keeps a registry sane. -/
theorem Sane.enroll (s : r.Sane) (p : Partition) : (r.enroll p).2.Sane := by
  have enrolls := s.enrolls p
  generalize (r.enroll p).1 = answer, (r.enroll p).2 = r' at enrolls
  cases enrolls with
  | new valid fresh room => exact s.add valid fresh room
  | _ => exact s

theorem register_eq_ok_iff : r.register p = .ok (id, r') ↔ r.enroll p = (.ok id, r') := by
  unfold register
  split
  · next enrolled =>
      rw [enrolled]
      simp
  · next enrolled =>
      rw [enrolled]
      simp

theorem Sane.register (s : r.Sane) (h : r.register p = .ok (id, r')) : r'.Sane := by
  have kept := s.enroll p
  rwa [register_eq_ok_iff.mp h] at kept

end Registry

end HomCircuit
