import HomCircuit.Schedule.Crew
import HomCircuit.Proofs.Job.Contract
import HomCircuit.Proofs.Schedule.Dispatch
import HomCircuit.Proofs.Schedule.Stock

/-!
# HomCircuit.Proofs.Schedule.Ledger

What holds of a call in flight, whatever its backend and however its workers take turns.

A backend is known here only by its conduct: what nodes keep of the resources and of what is deposited
on devices, which values belong into which slots, and with which errors a node may fail. The rest is
bookkeeping of the scheduler, and every section of a worker keeps it.

```
deposits on devices  =  those of the shelf + those that workers have in hand
```

* `Conduct` — a backend as the scheduler sees it;
* `Conduct.onHost` — one that keeps all values on the host; `Discipline` — if it also never waits;
  `Conduct.confined` — what every backend keeps;
* `Ledger` — the bookkeeping, with one lemma for each section: `start`, `look`, `change`, `release`,
  `complete`;
* `Ledger.supplied` — a node that was started finds all its inputs.
-/

namespace HomCircuit

/-! ## dropping buffers -/

namespace Resources

variable (r : Resources)

@[simp]
theorem drop_nil : r.drop [] = r := by
  simp [drop, Inventory.dropBuffers]

theorem drop_cons (b : Buffer) (bs : List Buffer) : r.drop (b :: bs) = (r.drop [b]).drop bs := by
  simp only [drop, Inventory.dropBuffers, Option.map_map]
  rfl

/-- A buffer on the host holds nothing on a device. -/
theorem drop_host {b : Buffer} {v : Value} (host : b.payload = .host v) : r.drop [b] = r := by
  simp [drop, Inventory.dropBuffers, Inventory.dropBuffer, Buffer.resident?, host]

end Resources

/-! ## conducts -/

/-- The inputs of a node, one by one. -/
def Plan.Supplies (p : Plan) (good : Nat → Value → Prop) (i : Nat) (inputs : List Shelved) : Prop :=
  List.Forall₂ (fun slot x => x.slot = slot ∧ p.Belongs good slot x.buffer x.deposits)
    (p.graph.inputsOf i) inputs

theorem Plan.Supplies.slots {p : Plan} {good : Nat → Value → Prop} {i : Nat} {inputs : List Shelved}
    (h : p.Supplies good i inputs) : inputs.map Shelved.slot = p.graph.inputsOf i := by
  have same : List.Forall₂ (· = ·) (p.graph.inputsOf i) (inputs.map Shelved.slot) :=
    List.forall₂_map_right_iff.mpr (h.imp fun _ _ both => both.1.symm)
  rw [List.forall₂_eq_eq_eq] at same
  exact same.symm

/-- What a worker may rely on between the sections of a node: that what it has in hand is on its
devices, and that the inputs are in their slots, and what is deposited for them on theirs. -/
def Run.Ready (kept : List Deposit → Resources → Prop) (inputs : List Shelved) (own : List Deposit)
    (r : Run) : Prop :=
  (∃ rest, kept (own ++ rest) r.resources ∧ ∀ x ∈ inputs, x.deposits ⊆ rest) ∧
    ∀ x ∈ inputs, r.arena.get? x.slot = some x.buffer

/-- A section of a node works on the resources alone, and touches no deposits but those that its
worker has in hand. -/
def Run.Trades (kept : List Deposit → Resources → Prop) (own own' : List Deposit) (r r' : Run) :
    Prop :=
  (∀ rest, kept (own ++ rest) r.resources → kept (own' ++ rest) r'.resources) ∧
    r' = { r with resources := r'.resources }

/-- A node ended with a buffer that belongs into its slot by what its worker has in hand, or with an
error that it may fail with. -/
def Performed.Gives (p : Plan) (kept : List Deposit → Resources → Prop) (good : Nat → Value → Prop)
    (bad : Nat → RunError → Prop) (i : Nat) (own : List Deposit) (done : Performed) : Prop :=
  done.record.node = (p.graph.node i).id ∧
    Settles
      (fun b => ∃ own', (∀ rest r, kept (own ++ rest) r → kept (own' ++ rest) r) ∧
        p.Belongs good (p.graph.outputSlot i) b own')
      (fun err => (∀ rest r, kept (own ++ rest) r → kept rest r) ∧ bad i err) done.result

/-- A backend as the scheduler sees it. -/
structure Conduct (e : Environment) (p : Plan) where
  /-- What no section of a call takes away from the resources while some words are deposited. -/
  kept : List Deposit → Resources → Prop
  /-- The values that may stand in a slot. -/
  good : Nat → Value → Prop
  /-- The errors that a node may fail with. -/
  bad : Nat → RunError → Prop
  perm : ∀ ds ds' r, ds.Perm ds' → kept ds r → kept ds' r
  withCancellation : ∀ f ds r, kept ds r → kept ds (r.withCancellation f)
  announce : ∀ c ds r, kept ds r → kept ds (r.announce e.primitives c)
  drop : ∀ b d rest r, b.payload = .device d.place → kept (d :: rest) r → kept rest (r.drop [b])
  perform : ∀ i, p.isLive i = true → ∀ inputs, p.Supplies good i inputs →
    (perform e p i).Tracks (Run.Ready kept inputs) (Run.Trades kept)
      (Performed.Gives p kept good bad i) []

/-- Buffers that are dropped give back what is deposited for them. -/
theorem Conduct.dropped {e : Environment} {p : Plan} (C : Conduct e p) {dropped : List Shelved}
    (fits : ∀ x ∈ dropped, p.Belongs C.good x.slot x.buffer x.deposits) {rest : List Deposit}
    {r : Resources} (h : C.kept (deposited dropped ++ rest) r) :
    C.kept rest (r.drop (dropped.map Shelved.buffer)) := by
  induction dropped generalizing r with
  | nil =>
      rw [List.map_nil, Resources.drop_nil]
      exact h
  | cons x dropped ih =>
      obtain ⟨first, others⟩ := List.forall_mem_cons.mp fits
      rw [List.map_cons, Resources.drop_cons]
      refine ih others ?_
      obtain ⟨v, stands, -⟩ := first.stands
      rw [deposited, List.flatMap_cons, List.append_assoc] at h
      generalize payload : x.buffer.payload = at_ at stands
      generalize x.deposits = ds at stands h
      cases stands with
      | host v =>
          rw [Resources.drop_host r payload]
          exact h
      | device place words => exact C.drop _ _ _ _ payload h

/-! ## disciplines -/

/-- The inputs of a node are in their slots. -/
def Run.Supplied (kept : Resources → Prop) (good : Nat → Value → Prop) (g : Graph) (i : Nat)
    (r : Run) : Prop :=
  kept r.resources ∧
    ∀ slot ∈ g.inputsOf i, ∃ b v, r.arena.get? slot = some b ∧ b.payload = .host v ∧ good slot v

/-- A section of a node works on the resources alone. -/
def Run.Keeps (kept : Resources → Prop) (r r' : Run) : Prop :=
  kept r'.resources ∧ r' = { r with resources := r'.resources }

/-- A node ended with a value that belongs into its slot, or with an error that it may fail with. -/
def Performed.Fits (p : Plan) (good : Nat → Value → Prop) (bad : Nat → RunError → Prop) (i : Nat)
    (done : Performed) : Prop :=
  done.record.node = (p.graph.node i).id ∧
    Settles (fun b => ∃ v, b.payload = .host v ∧ good (p.graph.outputSlot i) v) (bad i) done.result

/-- A backend as the scheduler sees it. -/
structure Discipline (e : Environment) (p : Plan) where
  /-- What no section of a call takes away from the resources. -/
  kept : Resources → Prop
  /-- The values that may stand in a slot. -/
  good : Nat → Value → Prop
  /-- The errors that a node may fail with. -/
  bad : Nat → RunError → Prop
  withCancellation : ∀ f r, kept r → kept (r.withCancellation f)
  announce : ∀ c r, kept r → kept (r.announce e.primitives c)
  drop : ∀ bs r, kept r → kept (r.drop bs)
  perform : ∀ i, p.isLive i = true →
    (perform e p i).Ensures (Run.Supplied kept good p.graph i) (Run.Keeps kept)
      (Performed.Fits p good bad i)
  direct : ∀ i, p.isLive i = true → (HomCircuit.perform e p i).Direct

/-- With nothing on devices, what nodes make of values on the host is a conduct. -/
def Conduct.onHost {e : Environment} {p : Plan} (kept : Resources → Prop) (good : Nat → Value → Prop)
    (bad : Nat → RunError → Prop) (withCancellation : ∀ f r, kept r → kept (r.withCancellation f))
    (announce : ∀ c r, kept r → kept (r.announce e.primitives c))
    (fits : ∀ i, p.isLive i = true →
      (HomCircuit.perform e p i).Ensures (Run.Supplied kept good p.graph i) (Run.Keeps kept)
        (Performed.Fits p good bad i)) : Conduct e p where
  kept ds r := ds = [] ∧ kept r
  good := good
  bad := bad
  perm ds ds' r same kept := by
    obtain ⟨rfl, kept⟩ := kept
    exact ⟨same.symm.eq_nil, kept⟩
  withCancellation f _ r kept := ⟨kept.1, withCancellation f r kept.2⟩
  announce c _ r kept := ⟨kept.1, announce c r kept.2⟩
  drop b d rest r _ kept := by
    obtain ⟨none, -⟩ := kept
    contradiction
  perform i alive inputs supplies := by
    refine (fits i alive).tracks ?_ ?_ ?_
    · rintro r ⟨⟨rest, ⟨none, kept⟩, placed⟩, found⟩
      refine ⟨kept, fun slot read => ?_⟩
      obtain rfl : rest = [] := by simpa using none
      obtain ⟨k, inside, rfl⟩ := List.getElem_of_mem read
      have inside' : k < inputs.length := by rwa [← supplies.length_eq]
      have mem := List.getElem_mem inside'
      obtain ⟨here, ⟨v, stands, fits⟩, -⟩ := List.Forall₂.get supplies inside inside'
      simp only [List.get_eq_getElem] at here stands fits
      rw [List.eq_nil_of_subset_nil (placed _ mem)] at stands
      exact ⟨_, v, by rw [← here, found _ mem], stands.eq_host, fits⟩
    · rintro r r' ⟨⟨rest, ⟨none, -⟩, -⟩, -⟩ ⟨kept, same⟩
      exact ⟨fun rest' both => ⟨both.1, kept⟩, same⟩
    · rintro performed ⟨named, settles⟩
      refine ⟨named, settles.mono ?_ fun err bad => ⟨fun _ _ => id, bad⟩⟩
      rintro b ⟨v, host, fits⟩
      exact ⟨[], fun _ _ => id, .of_host host fits⟩

/-- A discipline is a conduct. -/
def Discipline.conduct {e : Environment} {p : Plan} (D : Discipline e p) : Conduct e p :=
  .onHost D.kept D.good D.bad D.withCancellation D.announce D.perform

/-! ## the ledger -/

/-- The values that are there once some nodes are done: arguments, and outputs of these nodes. -/
def Plan.Full (p : Plan) (done : List Nat) (slot : Nat) : Prop :=
  slot < p.graph.arguments.size ∨ ∃ i ∈ done, slot = p.graph.outputSlot i

theorem Plan.full_cons {p : Plan} {done : List Nat} {i slot : Nat} :
    p.Full (i :: done) slot ↔ slot = p.graph.outputSlot i ∨ p.Full done slot := by
  simp only [Full, List.mem_cons, or_and_right, exists_or, exists_eq_left]
  tauto

/-- The reads that are still to come once some nodes have started: those of the others, those that
workers still owe, and those of the caller. -/
def Plan.readsLeft (p : Plan) (started owed : List Nat) : List Nat :=
  (p.liveIndices.filter fun i => decide (i ∉ started)).flatMap p.graph.inputsOf ++ owed ++
    p.requestedSlots

/-- Why a call may fail: it was cancelled, or one of its nodes failed. -/
def Failure.Blames (p : Plan) (bad : Nat → RunError → Prop) (f : Failure) : Prop :=
  f = ⟨.cancelled, none⟩ ∨
    ∃ i, p.isLive i = true ∧ bad i f.error ∧ f.node = some (p.graph.node i).id

/-- The bookkeeping of a call while workers have some deposits and some nodes in hand and owe some
reads. -/
structure Ledger {e : Environment} {p : Plan} (C : Conduct e p) (r : Run) (shelf : List Shelved)
    (own : List Deposit) (hands owed done lost : List Nat) : Prop where
  kept : C.kept (own ++ deposited shelf) r.resources
  standing : r.dispatch.Standing p hands done lost
  stock : Stock p C.good r.arena shelf (p.readsLeft r.dispatch.started owed) (p.Full done)
  /-- Nodes that are done gave a value that belongs into their slots. -/
  given : ∀ i ∈ done, ∃ v, C.good (p.graph.outputSlot i) v
  trace : r.trace.started = r.dispatch.started.reverse.map fun i => (p.graph.node i).id
  blame : ∀ f, r.dispatch.failure = some f → f.Blames p C.bad

/-- Nothing more is going to start. -/
def Run.Over (r : Run) : Prop := r.dispatch.failure ≠ none ∨ r.dispatch.remaining = 0

namespace Ledger

variable {e : Environment} {p : Plan} {C : Conduct e p} {r : Run} {shelf : List Shelved}
  {own frame : List Deposit} {hands owed done lost : List Nat} {i slot : Nat}

theorem perm_readsLeft {owed owed' started : List Nat} (same : owed.Perm owed') :
    (p.readsLeft started owed).Perm (p.readsLeft started owed') :=
  (same.append_left _).append_right _

/-- It does not matter in which order deposits and nodes are held and reads are owed. -/
theorem perm {own' : List Deposit} {hands' owed' : List Nat}
    (l : Ledger C r shelf own hands owed done lost) (sameOwn : own.Perm own')
    (sameHands : hands.Perm hands') (sameOwed : owed.Perm owed') :
    Ledger C r shelf own' hands' owed' done lost :=
  { l with
    kept := C.perm _ _ _ (sameOwn.append_right _) l.kept
    standing := l.standing.perm sameHands
    stock := l.stock.perm (perm_readsLeft sameOwed) }

/-- A node that was started finds all its inputs on the shelf. -/
theorem supplied (sound : p.Sound) (l : Ledger C r shelf own hands owed done lost)
    (held : i ∈ hands) (reads : ∀ slot ∈ p.graph.inputsOf i, slot ∈ owed) :
    ∃ inputs, p.Supplies C.good i inputs ∧ ∀ x ∈ inputs, x ∈ shelf := by
  have each : ∀ slot ∈ p.graph.inputsOf i, ∃ x, x ∈ shelf ∧ x.slot = slot := by
    intro slot read
    refine l.stock.value ?_ (List.mem_append_left _ (List.mem_append_right _ (reads slot read)))
    have inside := (sound.wired.inputs_lt i slot read).2
    rw [sound.wired.slotCount] at inside
    by_cases argument : slot < p.graph.arguments.size
    · exact .inl argument
    · have produced : p.graph.producer? slot = some (slot - p.graph.arguments.size) := by
        simp [Graph.producer?, argument, inside]
      have producer : slot - p.graph.arguments.size ∈ p.graph.producersOf i :=
        List.mem_filterMap.mpr ⟨slot, read, produced⟩
      have free := l.standing.free i (l.standing.started_of_hands held)
      refine .inr ⟨_, Graph.waiting_eq_zero.mp free _ producer, ?_⟩
      simp only [Graph.outputSlot]
      omega
  choose! entry there here using each
  refine ⟨(p.graph.inputsOf i).map entry, ?_, ?_⟩
  · refine List.forall₂_map_right_iff.mpr (List.forall₂_same.mpr fun slot read => ?_)
    have fits := l.stock.fits _ (there slot read)
    rw [here slot read] at fits
    exact ⟨here slot read, fits⟩
  · intro x mem
    obtain ⟨slot, read, rfl⟩ := List.mem_map.mp mem
    exact there slot read

/-- What a worker may rely on while its inputs are on the shelf. -/
theorem ready {inputs : List Shelved} (l : Ledger C r shelf (own ++ frame) hands owed done lost)
    (there : ∀ x ∈ inputs, x ∈ shelf) : r.Ready C.kept inputs own := by
  refine ⟨⟨frame ++ deposited shelf, ?_, fun x mem => ?_⟩, fun x mem => l.stock.found x (there x mem)⟩
  · rw [← List.append_assoc]
    exact l.kept
  · exact fun d held => List.mem_append_right _ (List.mem_flatMap.mpr ⟨x, there x mem, held⟩)

/-! ## sections -/

/-- A section that works on the resources alone. -/
theorem change {own' : List Deposit} {r' : Run}
    (l : Ledger C r shelf (own ++ frame) hands owed done lost) (h : Run.Trades C.kept own own' r r') :
    Ledger C r' shelf (own' ++ frame) hands owed done lost := by
  obtain ⟨trades, same⟩ := h
  have kept := trades (frame ++ deposited shelf) (by rw [← List.append_assoc]; exact l.kept)
  rw [← List.append_assoc] at kept
  rw [same]
  exact { l with kept }

theorem kept_foldl_announce (calls : List PrimitiveCall) {ds : List Deposit} {s : Resources}
    (h : C.kept ds s) : C.kept ds (calls.foldl (Resources.announce e.primitives) s) := by
  induction calls generalizing s with
  | nil => exact h
  | cons c rest ih => exact ih (C.announce c ds s h)

theorem announce (l : Ledger C r shelf own hands owed done lost) (calls : List PrimitiveCall) :
    Ledger C (r.announce e calls) shelf own hands owed done lost :=
  { l with kept := kept_foldl_announce calls l.kept }

/-- A worker asks for a node and gets none. -/
theorem look (l : Ledger C r shelf own hands owed done lost) (cancelled : Bool) :
    Ledger C { r with dispatch := r.dispatch.notice cancelled } shelf own hands owed done lost := by
  have same : (r.dispatch.notice cancelled).started = r.dispatch.started := by
    unfold Dispatch.notice
    split <;> rfl
  exact
    { kept := l.kept
      standing := l.standing.notice cancelled
      stock := by
        simp only [same]
        exact l.stock
      given := l.given
      trace := by
        simp only [same]
        exact l.trace
      blame := by
        intro f failed
        simp only [Dispatch.notice] at failed
        split at failed
        · exact .inl (Option.some.inj failed).symm
        · exact l.blame f failed }

/-- The reads of a node that starts are owed by its worker from then on. -/
theorem perm_readsLeft_start {started owed : List Nat} (live : i ∈ p.liveIndices)
    (fresh : i ∉ started) :
    (p.readsLeft started owed).Perm (p.readsLeft (i :: started) (p.graph.inputsOf i ++ owed)) := by
  have split : (p.liveIndices.filter fun j => decide (j ∉ started)).Perm
      (i :: p.liveIndices.filter fun j => decide (j ∉ i :: started)) := by
    refine (List.perm_ext_iff_of_nodup (Plan.nodup_liveIndices.filter _)
      (List.nodup_cons.mpr ⟨by simp, Plan.nodup_liveIndices.filter _⟩)).mpr fun j => ?_
    by_cases same : j = i
    · subst same
      simp [live, fresh]
    · simp [same]
  have reads := split.flatMap_right p.graph.inputsOf
  rw [List.flatMap_cons] at reads
  refine ((reads.append_right owed).trans ?_).append_right _
  rw [← List.append_assoc]
  exact List.perm_append_comm.append_right owed

/-- A worker asks for a node and gets one. -/
theorem start (sound : p.Sound) (l : Ledger C r shelf own hands owed done lost) {d' : Dispatch}
    (h : r.dispatch.candidate? p = some (i, d')) :
    Ledger C
      { r with
        dispatch := { d' with started := i :: d'.started, running := d'.running + 1 }
        trace := r.trace.start (p.graph.node i).id }
      shelf own (i :: hands) (p.graph.inputsOf i ++ owed) done lost := by
  obtain ⟨alive, fresh, -⟩ := l.standing.candidate sound h
  obtain ⟨standing, started, failure⟩ := l.standing.start sound h
  exact
    { kept := l.kept
      standing
      stock := by
        simp only [started]
        exact l.stock.perm
          (perm_readsLeft_start (Plan.mem_liveIndices.mpr ⟨sound.live_lt i alive, alive⟩) fresh)
      given := l.given
      trace := by
        simp only [started, Trace.start, l.trace, List.reverse_cons, List.map_append,
          List.map_singleton]
      blame := by
        simp only [failure]
        exact l.blame }

/-- The buffers on a shelf that somebody owes a read stay there. -/
def Stays (shelf shelf' : List Shelved) (owed : List Nat) : Prop :=
  ∀ x ∈ shelf, x.slot ∈ owed → x ∈ shelf'

/-- A worker ends one of the reads that it owes. -/
theorem release (l : Ledger C r shelf own hands (slot :: owed) done lost) :
    ∃ shelf', Ledger C (r.release slot) shelf' own hands owed done lost ∧
      Stays shelf shelf' owed := by
  have reads : (p.readsLeft r.dispatch.started (slot :: owed)).Perm
      (slot :: p.readsLeft r.dispatch.started owed) := by
    simp only [Plan.readsLeft]
    rw [List.append_assoc, List.append_assoc, List.cons_append]
    exact List.perm_middle
  obtain ⟨dropped, shelf', same, given, stock⟩ := (l.stock.perm reads).release
  refine ⟨shelf', { l with kept := ?_, stock }, fun x mem read => ?_⟩
  · change C.kept _ (r.resources.drop (r.arena.release slot).1)
    rw [given]
    refine C.dropped (fun x mem => l.stock.fits x (same.mem_iff.mpr (List.mem_append_left _ mem)))
      (C.perm _ _ _ ?_ l.kept)
    have whole := same.flatMap_right Shelved.deposits
    rw [List.flatMap_append] at whole
    exact (whole.append_left own).trans (List.perm_append_comm_assoc own _ _)
  · have there := (l.stock.filled x.slot).mp (List.mem_map.mpr ⟨x, mem, rfl⟩)
    obtain ⟨y, mem', here⟩ := stock.value there.1
      (List.mem_append_left _ (List.mem_append_right _ read))
    rwa [l.stock.eq_of_slot mem (same.mem_iff.mpr (List.mem_append_right _ mem')) here.symm]

/-- A buffer that belongs into the slot of a node in hand, which no node has filled. -/
theorem store (sound : p.Sound) (l : Ledger C r shelf (own ++ frame) (i :: hands) owed done lost)
    {b : Buffer} (fits : p.Belongs C.good (p.graph.outputSlot i) b own) :
    ∃ shelf', Stays shelf shelf' owed ∧
      C.kept (frame ++ deposited shelf')
        (r.resources.drop (r.arena.store (p.graph.outputSlot i) b).1) ∧
      Stock p C.good (r.arena.store (p.graph.outputSlot i) b).2 shelf'
        (p.readsLeft r.dispatch.started owed) (p.Full (i :: done)) := by
  have alive := l.standing.alive i (l.standing.started_of_hands List.mem_cons_self)
  have inside : p.graph.outputSlot i < p.graph.slotCount := by
    have := sound.live_lt i alive
    rw [sound.wired.slotCount, Graph.outputSlot]
    omega
  have fresh : ¬p.Full done (p.graph.outputSlot i) := by
    rintro (argument | ⟨j, mem, same⟩)
    · simp only [Graph.outputSlot] at argument
      omega
    · have : i = j := by simpa [Graph.outputSlot] using same
      exact l.standing.not_done List.mem_cons_self (this ▸ mem)
  obtain ⟨dropped, shelf', same, given, stock⟩ :=
    l.stock.store (x := ⟨p.graph.outputSlot i, b, own⟩) inside fresh fits
  have sub (x : Shelved) (mem : x ∈ dropped ++ shelf') :
      x = ⟨p.graph.outputSlot i, b, own⟩ ∨ x ∈ shelf :=
    List.mem_cons.mp (same.mem_iff.mpr mem)
  have belong (x : Shelved) (mem : x ∈ dropped ++ shelf') :
      p.Belongs C.good x.slot x.buffer x.deposits := by
    rcases sub x mem with rfl | old
    · exact fits
    · exact l.stock.fits x old
  refine ⟨shelf', fun x mem read => ?_, ?_, stock.congr fun slot _ => ?_⟩
  · have there := ((l.stock.filled x.slot).mp (List.mem_map.mpr ⟨x, mem, rfl⟩)).1
    obtain ⟨y, mem', here⟩ := stock.value (.inr there)
      (List.mem_append_left _ (List.mem_append_right _ read))
    rcases sub y (List.mem_append_right _ mem') with rfl | old
    · have here' : p.graph.outputSlot i = x.slot := here
      exact absurd (here' ▸ there) fresh
    · rwa [l.stock.eq_of_slot mem old here.symm]
  · rw [given]
    refine C.dropped (fun x mem => belong x (List.mem_append_left _ mem)) (C.perm _ _ _ ?_ l.kept)
    have whole := same.flatMap_right Shelved.deposits
    rw [List.flatMap_append, List.flatMap_cons] at whole
    rw [List.append_assoc]
    exact (List.perm_append_comm_assoc own frame _).trans
      ((whole.append_left frame).trans (List.perm_append_comm_assoc frame _ _))
  · exact Plan.full_cons

/-- A worker settles the node that it has in hand. -/
theorem complete (sound : p.Sound) (l : Ledger C r shelf (own ++ frame) (i :: hands) owed done lost)
    {performed : Performed} (gives : performed.Gives p C.kept C.good C.bad i own) :
    ∃ shelf' done' lost', Ledger C (r.complete p i performed) shelf' frame hands owed done' lost' ∧
      Stays shelf shelf' owed := by
  obtain ⟨named, settles⟩ := gives
  have alive := l.standing.alive i (l.standing.started_of_hands List.mem_cons_self)
  have kept := l.kept
  rw [List.append_assoc] at kept
  unfold Run.complete
  cases result : performed.result with
  | error err =>
      rw [result] at settles
      obtain ⟨forget, bad⟩ := settles
      refine ⟨shelf, done, i :: lost, ?_, fun x mem _ => mem⟩
      exact
        { kept := forget _ _ kept
          standing := l.standing.fail err performed.record.node
          stock := l.stock
          given := l.given
          trace := l.trace
          blame := by
            intro f failed
            cases first : r.dispatch.failure with
            | none =>
                have failed' : Failure.mk err (some performed.record.node) = f := by
                  simpa [Dispatch.fail, first] using failed
                subst failed'
                exact .inr ⟨i, alive, bad, by rw [named]⟩
            | some f' =>
                have failed' : f' = f := by simpa [Dispatch.fail, first] using failed
                subst failed'
                exact l.blame _ first }
  | ok b =>
      rw [result] at settles
      obtain ⟨own', shift, fits⟩ := settles
      have l' : Ledger C r shelf (own' ++ frame) (i :: hands) owed done lost :=
        { l with
          kept := by
            rw [List.append_assoc]
            exact shift _ _ kept }
      by_cases failed : r.dispatch.failure.isSome
      · simp only [if_pos failed]
        refine ⟨shelf, done, i :: lost, ?_, fun x mem _ => mem⟩
        exact
          { kept := by
              have fits : ∀ s ∈ [(⟨p.graph.outputSlot i, b, own'⟩ : Shelved)],
                  p.Belongs C.good s.slot s.buffer s.deposits := by simpa using fits
              refine C.dropped fits ?_
              simpa [deposited] using shift _ _ kept
            standing := l.standing.discard (Option.isSome_iff_ne_none.mp failed)
            stock := l.stock
            given := l.given
            trace := l.trace
            blame := l.blame }
      · simp only [if_neg failed]
        obtain ⟨shelf', stays, kept', stock⟩ := l'.store sound fits
        obtain ⟨v, -, good⟩ := fits.stands
        have started : (r.dispatch.succeed p i).started = r.dispatch.started := by
          rw [Dispatch.succeed, Dispatch.foldl_resolve]
        have failure : (r.dispatch.succeed p i).failure = r.dispatch.failure := by
          rw [Dispatch.succeed, Dispatch.foldl_resolve]
        refine ⟨shelf', i :: done, lost, ?_, stays⟩
        exact
          { kept := kept'
            standing := l.standing.succeed sound
            stock := by
              simp only [started]
              exact stock
            given := List.forall_mem_cons.mpr ⟨⟨v, good⟩, l.given⟩
            trace := by
              simp only [started]
              exact l.trace
            blame := by
              simp only [failure]
              exact l.blame }

end Ledger

end HomCircuit
