import HomCircuit.Schedule.Run
import HomCircuit.Proofs.Arena
import HomCircuit.Proofs.Except
import HomCircuit.Proofs.Graph.Wiring

/-!
# HomCircuit.Proofs.Schedule.Stock

The buffers of a call in flight: every slot is owed exactly the reads that are still to come, and a
slot whose value is there keeps it until the last of them.

```
owed slot  =  how often the slot stands in the list of reads to come
shelf      =  the slots whose values are there and still to be read
```

A buffer on the host is its value; one that is resident on a device stands for the words that are
deposited there.

* `Deposit`, `Payload.Stands` — what is deposited for a buffer, and the value that it stands for;
* `Shelved`, `Stock` — the invariant, kept by `Stock.release`, `Stock.take` and `Stock.store`;
* `Stock.bind` — the arguments are in stock once they are bound.
-/

namespace HomCircuit

/-! ## what buffers stand for -/

/-- Words in an allocation on a device. -/
structure Deposit where
  place : Resident
  words : Ciphertext
  deriving Inhabited

/-- A payload stands for a value by what is deposited for it. -/
inductive Payload.Stands : Payload → Value → List Deposit → Prop
  | host (v : Value) : Stands (.host v) v []
  | device (place : Resident) (words : Ciphertext) :
      Stands (.device place) (.ciphertext words) [⟨place, words⟩]

/-- A buffer for which nothing is deposited is its value. -/
theorem Payload.Stands.eq_host {payload : Payload} {v : Value} (h : payload.Stands v []) :
    payload = .host v := by
  cases h
  rfl

/-- The slots of outputs that stay on their devices. -/
def Plan.Resides (p : Plan) (slot : Nat) : Prop :=
  ∃ i, p.isResident i = true ∧ slot = p.graph.outputSlot i

/-- A buffer belongs into a slot if it stands for a value that does; only outputs that stay on their
devices may be there. -/
structure Plan.Belongs (p : Plan) (good : Nat → Value → Prop) (slot : Nat) (b : Buffer)
    (deposits : List Deposit) : Prop where
  stands : ∃ v, b.payload.Stands v deposits ∧ good slot v
  resident : b.resident?.isSome = true → p.Resides slot

/-- What was asked for does not stay on a device. -/
theorem Plan.not_resides {p : Plan} {slot : Nat} (asked : slot ∈ p.requestedSlots) :
    ¬p.Resides slot := by
  rintro ⟨i, resident, rfl⟩
  simp [isResident, asked] at resident

section Belongs

variable {p : Plan} {good : Nat → Value → Prop} {slot : Nat} {b : Buffer} {deposits : List Deposit}

theorem Plan.Belongs.of_host {v : Value} (host : b.payload = .host v) (fits : good slot v) :
    p.Belongs good slot b [] where
  stands := ⟨v, host ▸ .host v, fits⟩
  resident resides := by simp [Buffer.resident?, host] at resides

/-- What was asked for is on the host. -/
theorem Plan.Belongs.host (h : p.Belongs good slot b deposits) (asked : slot ∈ p.requestedSlots) :
    deposits = [] ∧ ∃ v, b.payload = .host v ∧ good slot v := by
  obtain ⟨⟨v, stands, fits⟩, resident⟩ := h
  generalize payload : b.payload = at_ at stands
  cases stands with
  | host v => exact ⟨rfl, v, rfl, fits⟩
  | device place words =>
      exact absurd (resident (by simp [Buffer.resident?, payload])) (Plan.not_resides asked)

end Belongs

/-- An argument that is accepted was supplied, and its buffer is its representation on the host. -/
theorem Run.exists_of_argument {e : Environment} {supplied : List (ValueId × Value)} {v : ValueId}
    {id : PartitionId} {b : Buffer} (h : Run.argument e supplied v id = .ok b) :
    ∃ given q x, supplied.lookup v = some given ∧ e.partition id = .ok q ∧
      Run.representation e.mode v q given = .ok x ∧ b = .ofHost v id x := by
  unfold Run.argument at h
  cases found : supplied.lookup v with
  | none => simp [found] at h
  | some given =>
      simp only [found] at h
      obtain ⟨q, known, represented⟩ := Except.exists_of_bind h
      obtain ⟨x, made, rfl⟩ := Except.exists_of_map represented
      exact ⟨given, q, x, rfl, known, made, rfl⟩

/-! ## the shelf -/

/-- A buffer in its slot, with what is deposited for it. -/
structure Shelved where
  slot : Nat
  buffer : Buffer
  deposits : List Deposit
  deriving Inhabited

/-- What is deposited for several buffers. -/
def deposited (shelf : List Shelved) : List Deposit := shelf.flatMap Shelved.deposits

/-- The buffers of a call: those on the shelf, with the reads to come and the slots whose values are
there. -/
structure Stock (p : Plan) (good : Nat → Value → Prop) (a : Arena Buffer) (shelf : List Shelved)
    (owing : List Nat) (full : Nat → Prop) : Prop where
  size : a.size = p.graph.slotCount
  owed : ∀ slot, a.owed slot = owing.count slot
  found : ∀ x ∈ shelf, a.get? x.slot = some x.buffer
  only : ∀ slot b, a.get? slot = some b → slot ∈ shelf.map Shelved.slot
  distinct : (shelf.map Shelved.slot).Nodup
  /-- A value that is there is kept while it is still to be read, and no longer. -/
  filled : ∀ slot, slot ∈ shelf.map Shelved.slot ↔ full slot ∧ slot ∈ owing
  fits : ∀ x ∈ shelf, p.Belongs good x.slot x.buffer x.deposits

namespace Stock

variable {p : Plan} {good : Nat → Value → Prop} {a : Arena Buffer} {shelf : List Shelved}
  {owing : List Nat} {full : Nat → Prop} {slot : Nat}

/-- It does not matter in which order the reads are to come. -/
theorem perm {others : List Nat} (st : Stock p good a shelf owing full)
    (same : owing.Perm others) : Stock p good a shelf others full :=
  { st with
    owed := fun slot => by rw [st.owed, same.count_eq]
    filled := fun slot => by rw [st.filled, same.mem_iff] }

/-- It does not matter in which order the buffers stand on the shelf. -/
theorem shelve {others : List Shelved} (st : Stock p good a shelf owing full)
    (same : shelf.Perm others) : Stock p good a others owing full :=
  { st with
    found := fun x mem => st.found x (same.mem_iff.mpr mem)
    only := fun slot b found => (same.map _).mem_iff.mp (st.only slot b found)
    distinct := (same.map _).nodup_iff.mp st.distinct
    filled := fun slot => by rw [← st.filled, (same.map _).mem_iff]
    fits := fun x mem => st.fits x (same.mem_iff.mpr mem) }

theorem congr {other : Nat → Prop} (st : Stock p good a shelf owing full)
    (same : ∀ slot ∈ owing, (other slot ↔ full slot)) : Stock p good a shelf owing other :=
  { st with
    filled := fun slot => by
      rw [st.filled]
      exact and_congr_left fun mem => (same slot mem).symm }

/-- A value that is there and still to be read. -/
theorem value (st : Stock p good a shelf owing full) (there : full slot) (mem : slot ∈ owing) :
    ∃ x ∈ shelf, x.slot = slot :=
  List.mem_map.mp ((st.filled slot).mpr ⟨there, mem⟩)

/-- A slot has one buffer. -/
theorem eq_of_slot (st : Stock p good a shelf owing full) {x y : Shelved} (hx : x ∈ shelf)
    (hy : y ∈ shelf) (same : x.slot = y.slot) : x = y :=
  List.inj_on_of_nodup_map st.distinct hx hy same

/-- An empty slot. -/
theorem get?_eq_none (st : Stock p good a shelf owing full)
    (absent : slot ∉ shelf.map Shelved.slot) : a.get? slot = none := by
  cases found : a.get? slot with
  | none => rfl
  | some b => exact absurd (st.only slot b found) absent

/-- Nothing is kept that nobody will read. -/
theorem eq_nil (st : Stock p good a shelf [] full) : shelf = [] := by
  refine List.eq_nil_iff_forall_not_mem.mpr fun x mem => ?_
  have read := ((st.filled x.slot).mp (List.mem_map.mpr ⟨x, mem, rfl⟩)).2
  contradiction

/-- While only the caller is going to read, everything is on the host. -/
theorem deposited_eq_nil (st : Stock p good a shelf owing full)
    (asked : ∀ slot ∈ owing, slot ∈ p.requestedSlots) : deposited shelf = [] := by
  refine List.flatMap_eq_nil_iff.mpr fun x mem => ?_
  have read := ((st.filled x.slot).mp (List.mem_map.mpr ⟨x, mem, rfl⟩)).2
  exact ((st.fits x mem).host (asked _ read)).1

/-- The buffer of some slot is taken off the shelf, and the slot is emptied. -/
theorem off {a' : Arena Buffer} {owing' : List Nat} {x : Shelved} {rest : List Shelved}
    (st : Stock p good a (x :: rest) owing full) (size : a'.size = a.size)
    (owed : ∀ t, a'.owed t = owing'.count t)
    (get : ∀ t, a'.get? t = if t = x.slot then none else a.get? t)
    (reads : ∀ t, t ∈ owing' ↔ t ≠ x.slot ∧ t ∈ owing) : Stock p good a' rest owing' full where
  size := by rw [size, st.size]
  owed := owed
  found y mem := by
    have apart : y.slot ≠ x.slot := fun same =>
      (List.nodup_cons.mp st.distinct).1 (List.mem_map.mpr ⟨y, mem, same⟩)
    rw [get, if_neg apart, st.found y (List.mem_cons_of_mem _ mem)]
  only t b found := by
    rw [get] at found
    split at found
    · contradiction
    · rename_i apart
      exact (List.mem_cons.mp (st.only t b found)).resolve_left apart
  distinct := (List.nodup_cons.mp st.distinct).2
  filled t := by
    have whole := st.filled t
    have fresh := (List.nodup_cons.mp st.distinct).1
    rw [List.map_cons, List.mem_cons] at whole
    rw [reads]
    constructor
    · intro mem
      have both := whole.mp (.inr mem)
      exact ⟨both.1, fun same => fresh (same ▸ mem), both.2⟩
    · rintro ⟨there, apart, mem⟩
      exact (whole.mpr ⟨there, mem⟩).resolve_left apart
  fits y mem := st.fits y (List.mem_cons_of_mem _ mem)

/-- One read less: what is dropped is off the shelf. -/
theorem release (st : Stock p good a shelf (slot :: owing) full) :
    ∃ dropped shelf', shelf.Perm (dropped ++ shelf') ∧
      (a.release slot).1 = dropped.map Shelved.buffer ∧
      Stock p good (a.release slot).2 shelf' owing full := by
  have owed (t : Nat) : (a.release slot).2.owed t = owing.count t := by
    rw [Arena.owed_release, st.owed, List.count_cons]
    by_cases same : slot = t
    · simp [same]
    · simp [same, Ne.symm same]
  have count : a.owed slot = owing.count slot + 1 := by rw [st.owed, List.count_cons_self]
  by_cases more : slot ∈ owing
  · -- the slot is read once more, so that everything stays where it is
    have several : ¬a.owed slot ≤ 1 := by
      have := List.count_pos_iff.mpr more
      omega
    have get (t : Nat) : (a.release slot).2.get? t = a.get? t := by
      rw [Arena.get?_release, if_neg fun both => several both.2]
    refine ⟨[], shelf, .refl _, by simp [Arena.fst_release, several], ?_⟩
    exact
      { size := by rw [Arena.size_release, st.size]
        owed
        found := fun x mem => by rw [get, st.found x mem]
        only := fun t b found => st.only t b (by rw [← get, found])
        distinct := st.distinct
        filled := fun t => by
          rw [st.filled, List.mem_cons]
          exact and_congr_right fun _ => or_iff_right_of_imp fun same => same ▸ more
        fits := st.fits }
  · have last : a.owed slot ≤ 1 := by
      have := List.count_eq_zero.mpr more
      omega
    have get (t : Nat) : (a.release slot).2.get? t = if t = slot then none else a.get? t := by
      simp [Arena.get?_release, last]
    by_cases there : slot ∈ shelf.map Shelved.slot
    · obtain ⟨x, mem, rfl⟩ := List.mem_map.mp there
      obtain ⟨front, back, rfl⟩ := List.append_of_mem mem
      refine ⟨[x], front ++ back, List.perm_middle, ?_, ?_⟩
      · simp [Arena.fst_release, last, st.found x mem]
      · refine (st.shelve List.perm_middle).off (Arena.size_release _ _) owed get fun t => ?_
        rw [List.mem_cons]
        constructor
        · intro mem
          exact ⟨fun same => more (same ▸ mem), .inr mem⟩
        · rintro ⟨apart, same | mem⟩
          · exact absurd same apart
          · exact mem
    · have empty := st.get?_eq_none there
      refine ⟨[], shelf, .refl _, by simp [Arena.fst_release, empty], ?_⟩
      have get' (t : Nat) : (a.release slot).2.get? t = a.get? t := by
        rw [get]
        split
        · next same => rw [same, empty]
        · rfl
      exact
        { size := by rw [Arena.size_release, st.size]
          owed
          found := fun x mem => by rw [get', st.found x mem]
          only := fun t b found => st.only t b (by rw [← get', found])
          distinct := st.distinct
          filled := fun t => by
            rw [st.filled, List.mem_cons]
            refine and_congr_right fun here => ⟨fun mem => ?_, .inr⟩
            rcases mem with rfl | mem
            · exact absurd ((st.filled t).mpr ⟨here, List.mem_cons_self⟩) there
            · exact mem
          fits := st.fits }

/-- The final read of a slot takes its buffer off the shelf. -/
theorem take {x : Shelved} (st : Stock p good a shelf (x.slot :: owing) full) (mem : x ∈ shelf)
    (last : x.slot ∉ owing) : ∃ shelf', shelf.Perm (x :: shelf') ∧
      Stock p good (a.take x.slot).2 shelf' owing full := by
  obtain ⟨front, back, rfl⟩ := List.append_of_mem mem
  refine ⟨front ++ back, List.perm_middle, ?_⟩
  refine (st.shelve List.perm_middle).off (Arena.size_take _ _) (fun t => ?_)
    (fun t => Arena.get?_take _ _ t) fun t => ?_
  · rw [Arena.owed_take, st.owed, List.count_cons]
    by_cases same : x.slot = t
    · simp [same]
    · simp [same, Ne.symm same]
  · rw [List.mem_cons]
    constructor
    · intro mem
      exact ⟨fun same => last (same ▸ mem), .inr mem⟩
    · rintro ⟨apart, same | mem⟩
      · exact absurd same apart
      · exact mem

/-- A value gets there: its buffer is on the shelf, or nobody will read it and it is dropped. -/
theorem store {x : Shelved} (st : Stock p good a shelf owing full)
    (inside : x.slot < p.graph.slotCount) (fresh : ¬full x.slot)
    (fits : p.Belongs good x.slot x.buffer x.deposits) :
    ∃ dropped shelf', (x :: shelf).Perm (dropped ++ shelf') ∧
      (a.store x.slot x.buffer).1 = dropped.map Shelved.buffer ∧
      Stock p good (a.store x.slot x.buffer).2 shelf' owing fun t => t = x.slot ∨ full t := by
  have absent : x.slot ∉ shelf.map Shelved.slot := fun mem => fresh ((st.filled _).mp mem).1
  have size : (a.store x.slot x.buffer).2.size = p.graph.slotCount := by
    rw [Arena.size_store, st.size]
  have owed (t : Nat) : (a.store x.slot x.buffer).2.owed t = owing.count t := by
    rw [Arena.owed_store, st.owed]
  by_cases read : x.slot ∈ owing
  · have some_ : a.owed x.slot ≠ 0 := by
      rw [st.owed]
      exact Nat.pos_iff_ne_zero.mp (List.count_pos_iff.mpr read)
    have get (t : Nat) :
        (a.store x.slot x.buffer).2.get? t = if t = x.slot then some x.buffer else a.get? t := by
      simp [Arena.get?_store, some_]
    refine ⟨[], x :: shelf, .refl _, ?_, ?_⟩
    · simp [Arena.fst_store, some_, st.get?_eq_none absent]
    · exact
        { size
          owed
          found := List.forall_mem_cons.mpr ⟨by rw [get, if_pos rfl], fun y mem => by
            have apart : y.slot ≠ x.slot := fun same => absent (List.mem_map.mpr ⟨y, mem, same⟩)
            rw [get, if_neg apart, st.found y mem]⟩
          only := fun t b found => by
            rw [get] at found
            rw [List.map_cons, List.mem_cons]
            split at found
            · next same => exact .inl same
            · exact .inr (st.only t b found)
          distinct := List.nodup_cons.mpr ⟨absent, st.distinct⟩
          filled := fun t => by
            rw [List.map_cons, List.mem_cons, st.filled, or_and_right]
            exact or_congr_left (iff_self_and.mpr fun same => same ▸ read)
          fits := List.forall_mem_cons.mpr ⟨fits, st.fits⟩ }
  · have none_ : a.owed x.slot = 0 := by rw [st.owed, List.count_eq_zero.mpr read]
    have inside' : x.slot < a.size := by rwa [st.size]
    have get (t : Nat) : (a.store x.slot x.buffer).2.get? t = a.get? t := by
      rw [Arena.get?_store, if_neg fun both => both.2 none_]
    refine ⟨[x], shelf, .refl _, by simp [Arena.fst_store, none_, inside'], ?_⟩
    exact
      { size
        owed
        found := fun y mem => by rw [get, st.found y mem]
        only := fun t b found => st.only t b (by rw [← get, found])
        distinct := st.distinct
        filled := fun t => by
          rw [st.filled, or_and_right, or_iff_right]
          exact fun both => read (both.1 ▸ both.2)
        fits := st.fits }

/-- The buffers that are left, in the order of their slots. -/
theorem clear (st : Stock p good a shelf owing full) :
    ∃ shelf', shelf.Perm shelf' ∧ a.clear.1 = shelf'.map Shelved.buffer := by
  let at_ (slot : Nat) : Option Shelved := shelf.find? (·.slot == slot)
  have of_at {slot : Nat} {x : Shelved} (h : at_ slot = some x) : x ∈ shelf ∧ x.slot = slot :=
    ⟨List.mem_of_find?_eq_some h, by simpa using List.find?_some h⟩
  have at_of {x : Shelved} (mem : x ∈ shelf) : at_ x.slot = some x := by
    cases found : at_ x.slot with
    | none =>
        have := List.find?_eq_none.mp found x mem
        simp at this
    | some y =>
        obtain ⟨mem', same⟩ := of_at found
        rw [st.eq_of_slot mem' mem same]
  have get (slot : Nat) : (at_ slot).map Shelved.buffer = a.get? slot := by
    cases found : at_ slot with
    | none =>
        refine (st.get?_eq_none fun placed => ?_).symm
        obtain ⟨x, mem, rfl⟩ := List.mem_map.mp placed
        rw [at_of mem] at found
        contradiction
    | some x =>
        obtain ⟨mem, rfl⟩ := of_at found
        exact (st.found x mem).symm
  refine ⟨(List.range a.size).filterMap at_, ?_, ?_⟩
  · refine (List.perm_ext_iff_of_nodup (List.Nodup.of_map _ st.distinct) ?_).mpr fun x => ?_
    · refine List.nodup_range.filterMap fun i j x hi hj => ?_
      exact (of_at hi).2.symm.trans (of_at hj).2
    · rw [List.mem_filterMap]
      constructor
      · intro mem
        exact ⟨x.slot, List.mem_range.mpr (Arena.lt_size_of_get? (st.found x mem)), at_of mem⟩
      · rintro ⟨slot, -, found⟩
        exact (of_at found).1
  · rw [List.map_filterMap, Arena.fst_clear]
    simp only [get]

/-! ## arguments -/

/-- Before anything is bound. -/
theorem initial {resources : Resources} (reads_lt : ∀ slot ∈ owing, slot < p.graph.slotCount)
    (counts : ∀ slot, p.consumers slot = owing.count slot) :
    Stock p good (Run.initial p resources).arena [] owing fun _ => False where
  size := by simp [Run.initial, Arena.size_ofCounts]
  owed slot := by
    simp only [Run.initial, Arena.owed_ofCounts, List.getD_eq_getElem?_getD, List.getElem?_map]
    by_cases inside : slot < p.graph.slotCount
    · simp [inside, counts]
    · have absent : slot ∉ owing := fun mem => inside (reads_lt slot mem)
      simp [inside, List.count_eq_zero.mpr absent]
  found := nofun
  only slot b found := by simp [Run.initial, Arena.get?_ofCounts] at found
  distinct := List.nodup_nil
  filled := by simp
  fits := nofun

/-- A buffer of an argument that somebody reads belongs into its slot. -/
def Admits (e : Environment) (p : Plan) (supplied : List (ValueId × Value))
    (good : Nat → Value → Prop) : Prop :=
  ∀ k v partition b, p.graph.arguments[k]? = some (v, partition) → p.consumers k ≠ 0 →
    Run.argument e supplied v partition = .ok b → ∃ x, b.payload = .host x ∧ good k x

/-- Once arguments from some position on are bound, they are in stock, and all on the host. -/
theorem bind_from {e : Environment} {supplied : List (ValueId × Value)}
    (w : p.graph.Wired) (counts : ∀ slot, p.consumers slot = owing.count slot)
    (admits : Admits e p supplied good) {rest : List (ValueId × PartitionId)} {k : Nat} {r r' : Run}
    (within : k ≤ p.graph.arguments.size) (position : p.graph.arguments.toList.drop k = rest)
    (st : Stock p good r.arena shelf owing fun t => t < k) (host : deposited shelf = [])
    (h : Run.bind e p supplied rest r = (.ok (), r')) :
    (∃ shelf', Stock p good r'.arena shelf' owing (fun t => t < p.graph.arguments.size) ∧
        deposited shelf' = []) ∧
      r' = { r with arena := r'.arena } := by
  induction rest generalizing k r shelf with
  | nil =>
      simp only [Run.bind, Prod.mk.injEq, true_and] at h
      subst h
      have beyond : p.graph.arguments.size ≤ k := by simpa using List.drop_eq_nil_iff.mp position
      exact ⟨⟨shelf, st.congr fun t _ => by rw [le_antisymm within beyond], host⟩, rfl⟩
  | cons first rest ih =>
      obtain ⟨v, partition⟩ := first
      have inside : k < p.graph.arguments.toList.length := by
        by_contra beyond
        rw [List.drop_eq_nil_of_le (by omega)] at position
        contradiction
      have within' : k + 1 ≤ p.graph.arguments.size := by simpa using inside
      rw [List.drop_eq_getElem_cons inside] at position
      obtain ⟨this, next⟩ := List.cons.inj position
      have found : p.graph.arguments[k]? = some (v, partition) := by
        rw [← Array.getElem?_toList, List.getElem?_eq_getElem inside, this]
      have lt : k < p.graph.slotCount := by
        rw [w.slotCount]
        simp only [Array.length_toList] at inside
        omega
      have slot : p.graph.slot? v = some k := by
        have place := w.slot?_valueAt lt
        rwa [w.valueAt_argument k _ found] at place
      simp only [Run.bind, slot] at h
      by_cases unread : p.consumers k = 0
      · rw [if_pos unread] at h
        refine ih within' next (st.congr fun t mem => ?_) host h
        have apart : t ≠ k := by
          rintro rfl
          rw [counts, List.count_eq_zero] at unread
          exact unread mem
        omega
      · rw [if_neg unread] at h
        cases made : Run.argument e supplied v partition with
        | error err => simp [made] at h
        | ok b =>
            simp only [made] at h
            obtain ⟨x, payload, fits⟩ := admits k v partition b found unread made
            obtain ⟨dropped, shelf', same, -, stored⟩ :=
              st.store (x := ⟨k, b, []⟩) lt (by simp) (.of_host payload fits)
            have host' : deposited shelf' = [] := by
              have whole := same.flatMap_right Shelved.deposits
              rw [List.flatMap_cons, List.flatMap_append] at whole
              change (([] : List Deposit) ++ deposited shelf).Perm (_ ++ deposited shelf') at whole
              rw [host] at whole
              exact (List.append_eq_nil_iff.mp whole.symm.eq_nil).2
            obtain ⟨bound, kept⟩ := ih within' next
              (stored.congr fun t _ => show t < k + 1 ↔ t = k ∨ t < k by omega) host' h
            refine ⟨bound, ?_⟩
            rw [kept]

/-- Once all arguments are bound, they are in stock, and all on the host. -/
theorem bind {e : Environment} {supplied : List (ValueId × Value)} {resources : Resources}
    {r : Run} (w : p.graph.Wired) (reads_lt : ∀ slot ∈ owing, slot < p.graph.slotCount)
    (counts : ∀ slot, p.consumers slot = owing.count slot) (admits : Admits e p supplied good)
    (h : Run.bind e p supplied p.graph.arguments.toList (Run.initial p resources) = (.ok (), r)) :
    (∃ shelf, Stock p good r.arena shelf owing (fun t => t < p.graph.arguments.size) ∧
        deposited shelf = []) ∧
      r = { Run.initial p resources with arena := r.arena } :=
  bind_from w counts admits (Nat.zero_le _) rfl
    ((initial reads_lt counts).congr fun _ _ => by simp) rfl h

end Stock

end HomCircuit
