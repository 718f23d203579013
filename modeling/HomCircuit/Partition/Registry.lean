import HomCircuit.Partition.Validation

/-!
# HomCircuit.Partition.Registry

Partitions under dense numbers and distinct names. A number is the place at which its partition
was first registered, so it never changes meaning.

```
partitions   number ↦ partition
numbers      name   ↦ number        the inverse of the partitions' names
```

* `Registry.enroll` — the number of a partition, new or known, and the registry afterwards;
* `Registry.register` — the same for a caller that gives up on an error;
* `Registry.get?`, `Registry.idOf?`, `Registry.toList` — views by number, by name, and of all.
-/

namespace HomCircuit

/-- The number of a partition within one registry. -/
structure PartitionId where
  index : UInt32
  deriving DecidableEq, Inhabited

/-- A partition number in texts. -/
def PartitionId.label (id : PartitionId) : String := s!"partition#{id.index}"

/-- Partitions in the order of their first registration. -/
structure Registry where
  partitions : Array Partition := #[]
  /-- The number of each name. -/
  numbers : List (String × PartitionId) := []
  deriving Inhabited

namespace Registry

/-- No partition at all. -/
def empty : Registry := {}

/-- Number of partitions. -/
def size (r : Registry) : Nat := r.partitions.size

/-- The partition with a number. -/
def get? (r : Registry) (id : PartitionId) : Option Partition := r.partitions[id.index.toNat]?

/-- The number of the partition with a name. -/
def idOf? (r : Registry) (name : String) : Option PartitionId := r.numbers.lookup name

/-- The partition with a name. -/
def named? (r : Registry) (name : String) : Option Partition := r.idOf? name >>= r.get?

/-- The partition with a name, or an error that tells the name. -/
def resolve (r : Registry) (name : String) : Except KeyError Partition :=
  match r.named? name with
  | some p => .ok p
  | none => .error (.unknownPartition name)

/-- All partitions with their numbers, in order. -/
def toList (r : Registry) : List (PartitionId × Partition) :=
  r.partitions.toList.zipIdx.map fun (p, i) => (⟨UInt32.ofNat i⟩, p)

/-- The number of the next partition. -/
def next (r : Registry) : PartitionId := ⟨UInt32.ofNat r.size⟩

/-- One more partition, under the next number. -/
def add (r : Registry) (p : Partition) : Registry :=
  { numbers := (p.name, r.next) :: r.numbers, partitions := r.partitions.push p }

/-- The number for a valid partition: the known one when equal parameters stand under its name,
and the next one when the name is new. -/
def enroll (r : Registry) (p : Partition) : Except KeyError PartitionId × Registry :=
  match p.validate with
  | .error e => (.error e, r)
  | .ok () =>
    match r.idOf? p.name with
    | some id =>
      if (r.get? id).any fun known => known.same p then (.ok id, r)
      else (.error (.invalidPartition p.name "already registered with different parameters"), r)
    | none =>
      if r.size < UInt32.size then (.ok r.next, r.add p)
      else (.error (.invalidPartition p.name "partition registry is full"), r)

/-- The number for a valid partition and the registry that has it, or an error alone. -/
def register (r : Registry) (p : Partition) : Except KeyError (PartitionId × Registry) :=
  match r.enroll p with
  | (.ok id, r) => .ok (id, r)
  | (.error e, _) => .error e

end Registry

end HomCircuit
