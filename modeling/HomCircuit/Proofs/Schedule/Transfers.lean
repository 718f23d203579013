import HomCircuit.Proofs.Schedule.Charges
import HomCircuit.Proofs.Schedule.Recount
import HomCircuit.Proofs.Schedule.Upkeep

/-!
# HomCircuit.Proofs.Schedule.Transfers

What a call counts on the only device of its context.

```
begun  +  nodes that are settled  +  nodes that are running   =   counters
```

Each worker has in hand what its node has counted so far. Once a node is settled, what it has counted is
told by where its inputs and its output are, and that is told by the plan, unless a node fell back on the
processor.

* `Chronicle.Charged` — the equation above, kept by every section of a worker;
* `Plan.offloaded`, `Plan.uploaded`, `Plan.downloaded` — the nodes that are sent to the device, the edges
  along which values are moved there, and the nodes whose outputs are moved back;
* `Plan.Offloads.isResident_eq`, `Plan.Offloads.stays_eq` — what the plan leaves on the device is what
  later nodes find there;
* `Plan.transfers`, `Plan.MayReturn.transfers` — what all of this adds up to in a call that succeeds.
-/

namespace HomCircuit

open TransferCounters

/-! ## workers -/

/-- A node that was fed from the slots of its inputs, with what was counted for it. -/
def Performed.Paid (p : Plan) (id : DeviceId) (begun : Run) (es : History) (i : Nat)
    (m : TransferCounters) (done : Performed) : Prop :=
  ∃ inputs, es.Fed p begun i inputs ∧ done.Charged p id i inputs m

/-- What a worker has in hand: what its node has counted and put on the device so far, and what it will
have counted when it has run. -/
def Station.Charges (p : Plan) (id : DeviceId) (begun : Run) (es : History)
    (own : TransferCounters × List Deposit) : Station → Prop
  | .performing i job => ∃ inputs, es.Fed p begun i inputs ∧
      job.Tracks (Run.Meets id inputs) Run.Charges
        (fun own done => done.Charged p id i inputs own.1) own
  | .retiring i _ done => done.Paid p id begun es i own.1
  | _ => own.1 = 0

/-- A call that uses the devices of its context, and no remote workers. -/
structure Plan.Offloads (p : Plan) (e : Environment) : Prop where
  sound : p.Sound
  mode : e.mode = .accelerator
  accelerating : p.accelerating = true
  home : p.options.assignment = []

/-- So is every call that is prepared for devices, if it assigns no node to a remote worker. -/
theorem Plan.offloads_of_prepare {g : Graph} {o : CallOptions} {p : Plan} {e : Environment}
    (wired : g.Wired) (prepared : Plan.prepare g o true = .ok p) (mode : e.mode = .accelerator)
    (home : o.assignment = []) : p.Offloads e := by
  obtain ⟨sound, -, options⟩ := Plan.sound_of_prepare wired prepared
  refine { sound, mode, accelerating := ?_, home := options ▸ home }
  obtain ⟨slots, -, rfl⟩ := Except.exists_of_map prepared
  rfl

/-- What a section of a worker leads to: what it counts is in hand afterwards, or was paid for a node that
is settled. -/
structure Station.Pays (p : Plan) (id : DeviceId) (begun r : Run) (es : History)
    (own : TransferCounters × List Deposit) (after : Run × Station × History)
    (own' : TransferCounters × List Deposit) (spent : List ((Nat × Performed) × TransferCounters)) :
    Prop where
  later : r.resources.devices.Later after.1.resources.devices
  counted : ∃ n, own'.1 + (spent.map Prod.snd).sum = own.1 + n ∧
    after.1.resources.devices.counters = r.resources.devices.counters + n
  recalls : ∀ x ∈ own'.2, after.1.resources.devices.Recalls x
  at_ : after.2.1.Charges p id begun (es ++ after.2.2) own'
  settled : spent.map Prod.fst = after.2.2.settled
  paid : ∀ x ∈ spent, x.1.2.Paid p id begun (es ++ after.2.2) x.1.1 x.2

/-- Dropped buffers are not counted. -/
theorem Resources.counters_drop (r : Resources) (bs : List Buffer) :
    (r.drop bs).devices.counters = r.devices.counters := by
  have kept (v : Inventory) : (v.dropBuffers bs).counters = v.counters := by
    refine List.foldlRecOn (motive := fun w : Inventory => w.counters = v.counters) bs _ rfl
      fun w same b _ => ?_
    unfold Inventory.dropBuffer
    split
    · exact same
    · exact same
  unfold devices drop
  cases r.inventory with
  | none => rfl
  | some v => exact kept v

/-- Neither are primitives that are called. -/
theorem Run.devices_announce (r : Run) (e : Environment) (calls : List PrimitiveCall) :
    (r.announce e calls).resources.devices = r.resources.devices :=
  List.foldlRecOn (motive := fun s : Resources => s.devices = r.resources.devices) calls _ rfl
    fun _ same _ _ => same

/-- No node is assigned to a remote worker. -/
theorem Plan.Offloads.alone {e : Environment} {p : Plan} (h : p.Offloads e) {n : Node} :
    p.worker? n = none := by
  simp [worker?, h.home]

/-- A node whose inputs were put in their slots was fed with them. -/
theorem History.exists_fed {es : History} {p : Plan} {begun : Run} {i : Nat}
    (stored : ∀ slot ∈ p.graph.inputsOf i, ∃ b, es.stored? p begun slot = some b) :
    ∃ inputs, es.Fed p begun i inputs := by
  choose! buffer stored using stored
  refine ⟨(p.graph.inputsOf i).map fun slot => ⟨slot, buffer slot, []⟩, ?_, ?_⟩
  · rw [List.map_map]
    exact List.map_id _
  · intro x mem
    obtain ⟨slot, read, rfl⟩ := List.mem_map.mp mem
    exact stored slot read

section Move

variable {e : Environment} {p : Plan} {id : DeviceId} {begun r : Run} {es : History}
  {own : TransferCounters × List Deposit} {i : Nat}

theorem Performed.Paid.append {m : TransferCounters} {done : Performed}
    (h : done.Paid p id begun es i m) (es' : History) : done.Paid p id begun (es ++ es') i m := by
  obtain ⟨inputs, fed, charged⟩ := h
  exact ⟨inputs, fed.append es', charged⟩

theorem Station.Charges.append {s : Station} (h : s.Charges p id begun es own) (es' : History) :
    s.Charges p id begun (es ++ es') own := by
  cases s with
  | performing i job =>
      obtain ⟨inputs, fed, tracks⟩ := h
      exact ⟨inputs, fed.append es', tracks⟩
  | retiring i owed done => exact Performed.Paid.append h es'
  | _ => exact h

/-- A section in which no node is settled. -/
theorem Station.Pays.of_charges {own' : TransferCounters × List Deposit} {s : Station} {r' : Run}
    {es' : History} (charges : Run.Charges own own' r r') (settled : es'.settled = [])
    (at_ : s.Charges p id begun (es ++ es') own') :
    Station.Pays p id begun r es own (r', s, es') own' [] where
  later := charges.later
  counted := by simpa using charges.counted
  recalls := charges.recalls
  at_
  settled := settled.symm
  paid := nofun

/-- A section that leaves the devices alone, but for what is dropped. -/
theorem Station.Pays.silent {s : Station} {r' : Run} {es' : History}
    (single : Inventory.Single id own r.resources.devices)
    (later : r.resources.devices.Later r'.resources.devices)
    (same : r'.resources.devices.counters = r.resources.devices.counters)
    (settled : es'.settled = []) (at_ : s.Charges p id begun (es ++ es') own) :
    Station.Pays p id begun r es own (r', s, es') own [] :=
  .of_charges (single.silent later same) settled at_

/-- A worker that retires a node ends a read, or pays for the node that it settles. -/
theorem Station.pays_retire (single : Inventory.Single id own r.resources.devices) {done : Performed}
    (paid : done.Paid p id begun es i own.1) (owed : List Nat) :
    ∃ own' spent, Station.Pays p id begun r es own (Station.retire p r i done owed) own' spent := by
  cases owed with
  | cons slot rest =>
      exact ⟨own, [], .silent single (r.resources.later_drop _) (r.resources.counters_drop _) rfl
        (paid.append _)⟩
  | nil =>
      have dropped : ∃ bs, (r.complete p i done).resources = r.resources.drop bs := by
        unfold Run.complete
        cases done.result with
        | error err => exact ⟨[], r.resources.drop_nil.symm⟩
        | ok b =>
            dsimp only
            split
            · exact ⟨_, rfl⟩
            · exact ⟨_, rfl⟩
      obtain ⟨bs, dropped⟩ := dropped
      refine ⟨(0, []), [((i, done), own.1)], ?_, ⟨0, ?_, ?_⟩, nofun, rfl, rfl, ?_⟩
      · exact dropped ▸ r.resources.later_drop bs
      · simp
      · rw [add_zero]
        exact dropped ▸ r.resources.counters_drop bs
      · simpa [Station.retire] using paid.append [.settled i done]

/-- What a section of a worker counts is in hand afterwards, or was paid for. -/
theorem Station.Charges.move (offloads : p.Offloads e) (h : begun.Begun p)
    (single : Inventory.Single id own r.resources.devices) {s : Station}
    (here : s.Charges p id begun es own)
    (rests : ∀ slot b, es.stored? p begun slot = some b →
      ∀ place, b.payload = .device place → place.handle.device = id)
    {held owed : List Nat} (course : Course p begun r es held owed) (mine : s.hands ⊆ held)
    (due : s.owed p.graph ⊆ owed) :
    ∃ own' spent, Station.Pays p id begun r es own (s.move e p r) own' spent := by
  match s, here with
  | .gone, here => exact ⟨own, [], .silent single (.of_devices rfl) rfl rfl here⟩
  | .leaving i, here => exact ⟨own, [], .silent single (.of_devices rfl) rfl rfl here⟩
  | .retiring i reads done, here => exact Station.pays_retire single here reads
  | .performing i (.done done), here => exact Station.pays_retire single here _
  | .performing i (.await ready next), here =>
      refine ⟨own, [], .silent single (.of_devices rfl) rfl rfl ?_⟩
      obtain ⟨inputs, fed, tracks⟩ := here
      exact ⟨inputs, fed.append [], by split <;> exact tracks⟩
  | .performing i (.announce calls next), here =>
      have same := r.devices_announce e calls
      obtain ⟨inputs, fed, tracks⟩ := here
      exact ⟨own, [], .silent single (.of_devices (by rw [same])) (by rw [same]) rfl
        ⟨inputs, fed.append [], tracks⟩⟩
  | .performing i (.step act next), here =>
      obtain ⟨inputs, fed, tracks⟩ := here
      have meets : Run.Meets id inputs own r := by
        refine ⟨single, fun x mem => ?_⟩
        have read : x.slot ∈ p.graph.inputsOf i := fed.slots ▸ List.mem_map.mpr ⟨x, mem, rfl⟩
        obtain ⟨b, found, put⟩ := course.finds offloads.sound h (mine (List.mem_singleton_self i))
          (fun slot read => due read) x.slot read
        rw [found, ← put, fed.stored x mem]
      obtain ⟨own', charges, next'⟩ := tracks r meets
      exact ⟨own', [], .of_charges charges rfl ⟨inputs, fed.append [], next'⟩⟩
  | .idle, here =>
      have resources : (r.next e p).2.resources = r.resources := r.resources_next
      cases told : r.next e p with
      | mk turn r' =>
          rw [told] at resources
          have later : r.resources.devices.Later r'.resources.devices := .of_devices (by rw [resources])
          have same : r'.resources.devices.counters = r.resources.devices.counters := by rw [resources]
          simp only [Station.move, told]
          cases turn with
          | wait => exact ⟨own, [], .silent single later same rfl here⟩
          | stop =>
              refine ⟨own, [], .silent single later same ?_ here⟩
              split <;> rfl
          | start i =>
              obtain ⟨d', healthy, found, rfl⟩ := Run.next_start told
              have started := course.start healthy found
              have finds := started.finds offloads.sound h List.mem_cons_self
                fun slot read => List.mem_append_left _ read
              obtain ⟨inputs, fed⟩ := History.exists_fed fun slot read => (finds slot read).imp fun _ => And.right
              have home : ∀ x ∈ inputs, ∀ place, x.buffer.payload = .device place →
                  place.handle.device = id := fun x mem =>
                rests x.slot x.buffer ((History.stored?_snoc rfl).symm.trans (fed.stored x mem))
              have tracks := charges_perform (e := e) (i := i) offloads.mode offloads.accelerating
                offloads.alone fed.slots home own
              refine ⟨own, [], .silent single later same rfl ⟨inputs, fed, tracks.mono ?_⟩⟩
              rintro own' done ⟨m, counted, charged⟩
              rwa [counted, show own.1 = 0 from here, zero_add]

end Move

/-! ## every interleaving -/

/-- What was put in a slot is an argument, or the result of its node. -/
theorem History.stored?_cases {es : History} {p : Plan} {begun : Run} {slot : Nat} {b : Buffer}
    (h : es.stored? p begun slot = some b) :
    p.graph.producer? slot = none ∧ begun.arena.get? slot = some b ∨
      ∃ i done, p.graph.producer? slot = some i ∧ (i, done) ∈ es.settled ∧ done.result = .ok b := by
  unfold History.stored? at h
  split at h
  · next none_ => exact .inl ⟨none_, h⟩
  · next i produced =>
      obtain ⟨front, back, split, -⟩ := List.lookup_eq_some_iff.mp h
      have mem : (i, b) ∈ es.before.results := by simp [split]
      obtain ⟨⟨j, done⟩, settled, result⟩ := List.mem_filterMap.mp mem
      obtain ⟨made, ok, same⟩ := Option.map_eq_some_iff.mp result
      obtain ⟨rfl, rfl⟩ := Prod.mk.inj same
      exact .inr ⟨j, done, produced, mem_settled.mpr ((List.takeWhile_sublist _).subset
        (mem_settled.mp settled)), Except.eq_ok_of_toOption ok⟩

/-- Whether what is put in a slot stays on a device. -/
def Plan.stays (p : Plan) (slot : Nat) : Bool := (p.graph.producer? slot).any p.isResident

/-- The counters of the device are made up of what was paid for nodes that are settled, and of what
workers have in hand for those that run. -/
structure Chronicle.Charged (p : Plan) (id : DeviceId) (begun : Run) (c : Chronicle)
    (posts : List (Station × TransferCounters × List Deposit))
    (spent : List ((Nat × Performed) × TransferCounters)) : Prop where
  stations : posts.map Prod.fst = c.stations
  single : ∀ x ∈ posts, Inventory.Single id x.2 c.run.resources.devices
  at_ : ∀ x ∈ posts, x.1.Charges p id begun c.history x.2
  settled : spent.map Prod.fst = c.history.settled
  paid : ∀ x ∈ spent, x.1.2.Paid p id begun c.history x.1.1 x.2
  counted : c.run.resources.devices.counters = begun.resources.devices.counters +
    (spent.map Prod.snd).sum + (posts.map (·.2.1)).sum

namespace Chronicle.Charged

variable {e : Environment} {p : Plan} {id : DeviceId} {begun : Run} {c : Chronicle}
  {posts : List (Station × TransferCounters × List Deposit)}
  {spent : List ((Nat × Performed) × TransferCounters)}

/-- Before anything has happened, nobody has counted anything. -/
theorem initial (size : begun.resources.devices.devices.size = 1)
    (label : (begun.resources.devices.device 0).id = id) (workers : Nat) :
    (Chronicle.initial begun workers).Charged p id begun (List.replicate workers (.idle, 0, [])) []
    where
  stations := by simp [Chronicle.initial]
  single x mem := by
    obtain ⟨-, rfl⟩ := List.mem_replicate.mp mem
    exact ⟨size, label, List.forall_mem_nil _⟩
  at_ x mem := by
    obtain ⟨-, rfl⟩ := List.mem_replicate.mp mem
    exact rfl
  settled := rfl
  paid := List.forall_mem_nil _
  counted := by simp [Chronicle.initial]

/-- What was put in a slot is on the host, unless it stays on the device. -/
theorem rests (charged : c.Charged p id begun posts spent) (hosted : begun.Hosted) {slot : Nat}
    {b : Buffer} (stored : c.history.stored? p begun slot = some b) :
    b.payload.Rests id (p.stays slot) := by
  rcases History.stored?_cases stored with ⟨-, argument⟩ | ⟨i, done, produced, settled, ok⟩
  · exact .inl (hosted slot b argument)
  · obtain ⟨x, mem, same⟩ := List.mem_map.mp (charged.settled ▸ settled)
    obtain ⟨inputs, -, paid⟩ := charged.paid x mem
    rw [same] at paid
    rw [Plan.stays, produced]
    exact (paid b ok).1

/-- A section of a worker concerns its own part alone. -/
theorem worker (offloads : p.Offloads e) (h : begun.Begun p) (hosted : begun.Hosted)
    (valid : c.Valid p begun) (charged : c.Charged p id begun posts spent) (k : Nat) :
    ∃ posts' spent', (c.move e p (.worker k)).Charged p id begun posts' spent' := by
  simp only [Chronicle.move]
  cases found : c.stations[k]? with
  | none => exact ⟨posts, spent, charged⟩
  | some s =>
      have post : (posts[k]?).map Prod.fst = some s := by
        rw [← List.getElem?_map, charged.stations, found]
      obtain ⟨⟨s', own⟩, foundPost, rfl⟩ := Option.map_eq_some_iff.mp post
      obtain ⟨inside, here⟩ := List.getElem?_eq_some_iff.mp foundPost
      have memPost := List.mem_of_getElem? foundPost
      have mem := List.mem_of_getElem? found
      obtain ⟨_, m⟩ := valid
      have rests : ∀ slot b, c.history.stored? p begun slot = some b →
          ∀ place, b.payload = .device place → place.handle.device = id := by
        intro slot b stored place device
        rcases charged.rests hosted stored with ⟨w, host⟩ | ⟨-, place', device', label⟩
        · simp [device] at host
        · obtain rfl : place = place' := by simpa [device] using device'
          exact label
      obtain ⟨own', paid, pays⟩ := (charged.at_ _ memPost).move offloads h
        (charged.single _ memPost) rests m.course
        (fun i held => List.mem_flatMap.mpr ⟨s', mem, held⟩)
        fun slot due => List.mem_flatMap.mpr ⟨s', mem, due⟩
      refine ⟨posts.set k ((s'.move e p c.run).2.1, own'), spent ++ paid, ?_⟩
      exact
        { stations := by
            rw [List.map_set, charged.stations]
            rfl
          single := fun x there => by
            rcases List.mem_or_eq_of_mem_set there with old | rfl
            · have before := charged.single x old
              exact before.later pays.later fun d known => (before.recalls d known).later pays.later
            · exact (charged.single _ memPost).later pays.later pays.recalls
          at_ := fun x there => by
            rcases List.mem_or_eq_of_mem_set there with old | rfl
            · exact (charged.at_ x old).append _
            · exact pays.at_
          settled := by
            rw [List.map_append, charged.settled, pays.settled, ← History.settled_append]
            rfl
          paid := fun x there => by
            rcases List.mem_append.mp there with old | new
            · exact (charged.paid x old).append _
            · exact pays.paid x new
          counted := by
            obtain ⟨n, mine, total⟩ := pays.counted
            have whole := ((List.getElem_cons_eraseIdx_perm inside).map (·.2.1)).sum_eq
            have whole' := ((List.set_perm_cons_eraseIdx inside
              ((s'.move e p c.run).2.1, own')).map (·.2.1)).sum_eq
            rw [List.map_cons, List.sum_cons, here] at whole
            rw [List.map_cons, List.sum_cons] at whole'
            generalize ((posts.eraseIdx k).map (·.2.1)).sum = others at whole whole'
            simp only [Option.elim_some, Chronicle.update]
            rw [total, charged.counted, ← whole, whole', List.map_append, List.sum_append]
            calc _ = begun.resources.devices.counters + (spent.map Prod.snd).sum + others +
                (own.1 + n) := by abel
              _ = _ := by
                rw [← mine]
                abel }

/-- However workers take turns, the counters are made up so. -/
theorem moves (offloads : p.Offloads e) (h : begun.Begun p) (hosted : begun.Hosted)
    (valid : c.Valid p begun) (charged : c.Charged p id begun posts spent) (ms : List Move) :
    ∃ posts' spent', (c.moves e p ms).Charged p id begun posts' spent' := by
  induction ms generalizing c posts spent with
  | nil => exact ⟨posts, spent, charged⟩
  | cons m rest ih =>
      cases m with
      | worker k =>
          obtain ⟨posts', spent', charged'⟩ := charged.worker offloads h hosted valid k
          exact ih (valid.worker offloads.sound h k) charged'
      | raise t => exact ih (valid.cancel _) ⟨charged.stations, charged.single, charged.at_,
          charged.settled, charged.paid, charged.counted⟩
      | cancelInFlight => exact ih (valid.cancel _) ⟨charged.stations, charged.single, charged.at_,
          charged.settled, charged.paid, charged.counted⟩

/-- When all workers are gone, all that was counted was paid for nodes that are settled. -/
theorem finished (charged : c.Charged p id begun posts spent) (gone : (c.crew p).allGone = true) :
    c.run.resources.devices.counters =
      begun.resources.devices.counters + (spent.map Prod.snd).sum := by
  have nothing : (posts.map (·.2.1)).sum = 0 := by
    refine List.sum_eq_zero fun n counted => ?_
    obtain ⟨x, mem, rfl⟩ := List.mem_map.mp counted
    have there : x.1 ∈ c.stations := charged.stations ▸ List.mem_map.mpr ⟨x, mem, rfl⟩
    have last := List.all_eq_true.mp gone _ (List.mem_map.mpr ⟨x.1, there, rfl⟩)
    have here := charged.at_ x mem
    generalize x.1 = s at last here
    cases s with
    | gone => exact here
    | _ => contradiction
  rw [charged.counted, nothing, add_zero]

end Chronicle.Charged

/-! ## transfers of a plan -/

namespace Plan

/-- Live nodes that are sent to the device, in ascending order. -/
def offloaded (p : Plan) : List Nat := p.liveIndices.filter fun i => (p.graph.node i).eligible

/-- Whether the output of a node on the device comes back: it was asked for, or read by a live node that
is not sent there. -/
def comesBack (p : Plan) (i : Nat) : Bool :=
  p.requestedSlots.contains (p.graph.outputSlot i) ||
    p.liveIndices.any fun j => !(p.graph.node j).eligible &&
      (p.graph.inputsOf j).contains (p.graph.outputSlot i)

/-- Whether the value of a slot is on the host: it is an argument, or it was made there, or it has come
back. -/
def onHost (p : Plan) (slot : Nat) : Bool :=
  match p.graph.producer? slot with
  | none => true
  | some i => !(p.graph.node i).eligible || p.comesBack i

/-- The edges along which values are moved to the device, by slot. -/
def uploaded (p : Plan) : List Nat := (p.offloaded.flatMap p.graph.inputsOf).filter p.onHost

/-- The nodes whose outputs are moved to the host. -/
def downloaded (p : Plan) : List Nat := p.offloaded.filter p.comesBack

/-- What the device counts in a call whose values have some contents. -/
def transfers (p : Plan) (content : Nat → Ciphertext) : TransferCounters where
  executions := p.offloaded.length
  uploads := p.uploaded.length
  downloads := p.downloaded.length
  bytesToDevice := 8 * (p.uploaded.map fun slot => (content slot).length).sum
  bytesToHost := 8 * (p.downloaded.map fun i => (content (p.graph.outputSlot i)).length).sum

/-- The part of it that is counted for one node. -/
def bill (p : Plan) (content : Nat → Ciphertext) (i : Nat) : TransferCounters :=
  if (p.graph.node i).eligible then
    ((p.graph.inputsOf i).map fun slot => if p.onHost slot then up (content slot).length else 0).sum +
      ran + if p.comesBack i then down (content (p.graph.outputSlot i)).length else 0
  else 0

variable {p : Plan} {content : Nat → Ciphertext}

theorem sum_ups (P : Nat → Bool) (size : Nat → Nat) (slots : List Nat) :
    (slots.map fun slot => if P slot then up (size slot) else 0).sum =
      { uploads := (slots.filter P).length, bytesToDevice := 8 * ((slots.filter P).map size).sum } := by
  induction slots with
  | nil => rfl
  | cons slot rest ih =>
      rw [List.map_cons, List.sum_cons, ih]
      cases here : P slot with
      | false => simp [here]
      | true =>
          simp [here, add_def, plus, up]
          omega

/-- What is counted for the nodes of a call adds up to what the device counts in it. -/
theorem sum_bill : (p.liveIndices.map (p.bill content)).sum = p.transfers content := by
  unfold transfers uploaded downloaded offloaded
  induction p.liveIndices with
  | nil => rfl
  | cons i rest ih =>
      rw [List.map_cons, List.sum_cons, ih, bill, sum_ups]
      cases eligible : (p.graph.node i).eligible with
      | false => simp [eligible]
      | true =>
          cases back : p.comesBack i with
          | false =>
              simp [eligible, back, add_def, plus, ran, zero_def]
              omega
          | true =>
              simp [eligible, back, add_def, plus, ran, down]
              omega

namespace Offloads

variable {e : Environment} {i slot : Nat}

/-- An output stays on the device if its node is sent there and it does not come back. -/
theorem isResident_eq (o : p.Offloads e) (alive : p.isLive i = true) :
    p.isResident i = ((p.graph.node i).eligible && !p.comesBack i) := by
  have inside := o.sound.live_lt i alive
  have may (j : Nat) : p.maySendToDevice j = (p.graph.node j).eligible := by
    simp [maySendToDevice, o.alone]
  have readers : ((p.graph.dependentsOf i).filter p.isLive).all p.maySendToDevice =
      !p.liveIndices.any fun j => !(p.graph.node j).eligible &&
        (p.graph.inputsOf j).contains (p.graph.outputSlot i) := by
    rw [Bool.eq_iff_iff, Bool.not_eq_true', ← Bool.not_eq_true]
    simp only [List.all_eq_true, List.any_eq_true, List.mem_filter, may, Bool.and_eq_true,
      Bool.not_eq_true', List.contains_eq_mem, decide_eq_true_eq]
    constructor
    · rintro all ⟨j, live, away, read⟩
      have mem : j ∈ p.graph.dependentsOf i := (Graph.mem_dependentsOf o.sound.wired.toLinked).mpr
        (List.mem_filterMap.mpr ⟨_, read, Graph.producer?_outputSlot inside⟩)
      rw [all j ⟨mem, (mem_liveIndices.mp live).2⟩] at away
      contradiction
    · rintro none_ j ⟨mem, live⟩
      obtain ⟨slot, read, produced⟩ :=
        List.mem_filterMap.mp ((Graph.mem_dependentsOf o.sound.wired.toLinked).mp mem)
      obtain ⟨-, rfl⟩ := producer?_lt produced
      by_contra away
      exact none_ ⟨j, mem_liveIndices.mpr ⟨o.sound.live_lt j live, live⟩,
        Bool.eq_false_iff.mpr away, read⟩
  rw [isResident, readers, o.accelerating, alive, may, comesBack, Bool.not_or]
  simp only [Bool.true_and, Bool.and_assoc]

/-- A value stays on the device unless it is on the host. -/
theorem stays_eq (o : p.Offloads e) (alive : p.isLive i = true) (read : slot ∈ p.graph.inputsOf i) :
    p.stays slot = !p.onHost slot := by
  unfold stays onHost
  cases produced : p.graph.producer? slot with
  | none => rfl
  | some j =>
      have live := o.sound.closed i alive j (List.mem_filterMap.mpr ⟨slot, read, produced⟩)
      rw [Option.any_some, o.isResident_eq live, Bool.not_or, Bool.not_not]

/-- What a node reads that is not sent to the device is on the host. -/
theorem onHost_of_read (o : p.Offloads e) (alive : p.isLive i = true)
    (away : (p.graph.node i).eligible = false) (read : slot ∈ p.graph.inputsOf i) :
    p.onHost slot = true := by
  unfold onHost
  cases produced : p.graph.producer? slot with
  | none => rfl
  | some j =>
      obtain ⟨-, rfl⟩ := producer?_lt produced
      have back : p.comesBack j = true := by
        refine Bool.or_eq_true_iff.mpr (.inr (List.any_eq_true.mpr ⟨i, ?_, ?_⟩))
        · exact mem_liveIndices.mpr ⟨o.sound.live_lt i alive, alive⟩
        · simpa [away] using read
      simp [back]

end Offloads

end Plan

section Settled

variable {id : DeviceId} {b : Buffer} {known : List Deposit} {words : Ciphertext}

/-- A payload that does not stay on the device is its words on the host. -/
theorem Payload.Settled.host (s : b.payload.Settled id false) (reads : b.Reads known words) :
    b.payload = .host (.ciphertext words) := by
  obtain ⟨words', host⟩ : ∃ words, b.payload = .host (.ciphertext words) := by
    simpa [Payload.Settled] using s
  rcases reads.cases with same | ⟨place, device, -⟩
  · exact same
  · simp [device] at host

/-- One that does is not moved any more. -/
theorem Payload.Settled.moved_eq {back : Bool} (s : b.payload.Settled id (!back))
    (reads : b.Reads known words) : b.payload.moved = if back then up words.length else 0 := by
  cases back with
  | true => rw [s.host reads]; rfl
  | false =>
      obtain ⟨place, device, -⟩ := s
      rw [device]
      rfl

theorem Payload.Settled.fetched_eq {back : Bool} (s : b.payload.Settled id (!back))
    (reads : b.Reads known words) : b.payload.fetched = if back then down words.length else 0 := by
  cases back with
  | true => rw [s.host reads]; rfl
  | false =>
      obtain ⟨place, device, -⟩ := s
      rw [device]
      rfl

end Settled

/-- What is counted for a node is told by what the plan leaves on the device. -/
theorem Plan.Offloads.charge_eq {e : Environment} {p : Plan} (o : p.Offloads e) {i : Nat}
    (alive : p.isLive i = true) {id : DeviceId} {known : List Deposit} {content : Nat → Ciphertext}
    {inputs : List Shelved} (slots : inputs.map Shelved.slot = p.graph.inputsOf i)
    (settled : ∀ x ∈ inputs, x.buffer.payload.Settled id (p.stays x.slot))
    (reads : ∀ x ∈ inputs, x.buffer.Reads known (content x.slot)) {b : Buffer}
    (out : b.payload.Settled id (p.isResident i))
    (outReads : b.Reads known (content (p.graph.outputSlot i))) :
    p.charge i (inputs.map Shelved.buffer) b.payload = p.bill content i := by
  have read : ∀ x ∈ inputs, x.slot ∈ p.graph.inputsOf i := fun x mem =>
    slots ▸ List.mem_map.mpr ⟨x, mem, rfl⟩
  have settled : ∀ x ∈ inputs, x.buffer.payload.Settled id (!p.onHost x.slot) := fun x mem =>
    o.stays_eq alive (read x mem) ▸ settled x mem
  unfold charge bill
  cases eligible : (p.graph.node i).eligible with
  | false =>
      simp only [Bool.false_eq_true, if_false, List.map_map]
      refine List.sum_eq_zero fun n counted => ?_
      obtain ⟨x, mem, rfl⟩ := List.mem_map.mp counted
      have here := settled x mem
      rw [o.onHost_of_read alive eligible (read x mem)] at here
      simp only [Function.comp_apply, here.host (reads x mem)]
      rfl
  | true =>
      have moved : (inputs.map Shelved.buffer).map (·.payload.moved) = (p.graph.inputsOf i).map
          fun slot => if p.onHost slot then up (content slot).length else 0 := by
        rw [← slots, List.map_map, List.map_map]
        exact List.map_congr_left fun x mem => (settled x mem).moved_eq (reads x mem)
      rw [o.isResident_eq alive, eligible, Bool.true_and] at out
      simp only [if_true, moved, out.fetched_eq outReads]

/-! ## the end of a call -/

section End

variable {p : Plan} {begun r : Run} {es : History} {i : Nat}

/-- In a call that is well, all nodes that are settled are live, and their results were put in their
slots. -/
theorem Run.Accounts.stored (a : r.Accounts p es []) (sound : p.Sound)
    (healthy : r.dispatch.failure = none) {done : Performed} (mem : (i, done) ∈ es.settled) :
    p.isLive i = true ∧ ∃ b, done.result = .ok b ∧
      es.stored? p begun (p.graph.outputSlot i) = some b := by
  have well : es.failure? = none := a.failure ▸ healthy
  have quiet := History.failure?_eq_none_iff.mp well _ (History.mem_settled.mp mem)
  obtain ⟨b, ok⟩ : ∃ b, done.result = .ok b := by
    cases result : done.result with
    | ok b => exact ⟨b, rfl⟩
    | error err => simp [Event.failure?, result] at quiet
  have kept : (i, b) ∈ es.before.results := by
    rw [History.before_of_healthy well]
    exact List.mem_filterMap.mpr ⟨(i, done), mem, by simp [ok, Except.toOption]⟩
  have alive := a.kept_live i (List.mem_map.mpr ⟨(i, b), kept, rfl⟩)
  refine ⟨alive, b, ok, ?_⟩
  unfold History.stored?
  rw [Graph.producer?_outputSlot (sound.live_lt i alive)]
  exact (KeyCache.lookup_eq_some_iff_mem a.nodup_kept).mpr kept

/-- When such a call has nothing left to do, all its live nodes are settled. -/
theorem Run.Accounts.settled_perm (a : r.Accounts p es []) (sound : p.Sound)
    (healthy : r.dispatch.failure = none) (none_ : r.dispatch.remaining = 0) :
    (es.settled.map Prod.fst).Perm p.liveIndices := by
  have lost : es.lost = [] := by
    rw [History.lost, History.after_of_healthy (a.failure ▸ healthy)]
    rfl
  rw [es.settled_nodes, lost, List.append_nil]
  exact (List.reverse_perm _).symm.trans (a.standing.all_done sound none_)

end End

namespace Chronicle.Charged

variable {e : Environment} {p : Plan} {id : DeviceId} {begun : Run} {c : Chronicle}
  {posts : List (Station × TransferCounters × List Deposit)}
  {spent : List ((Nat × Performed) × TransferCounters)}

/-- If no node fell back on the processor, what was put in a slot is on the device where the plan leaves
it there, and on the host where it does not. -/
theorem places (charged : c.Charged p id begun posts spent) (hosted : begun.Hosted)
    (assisted : ∀ s ∈ c.history.settled, s.2.record.fellBack = false) {slot : Nat} {b : Buffer}
    (stored : c.history.stored? p begun slot = some b) : b.payload.Settled id (p.stays slot) := by
  unfold Plan.stays
  rcases History.stored?_cases stored with ⟨none_, argument⟩ | ⟨i, done, produced, settled, ok⟩
  · rw [none_]
    exact hosted slot b argument
  · obtain ⟨x, mem, same⟩ := List.mem_map.mp (charged.settled ▸ settled)
    obtain ⟨inputs, -, paid⟩ := charged.paid x mem
    rw [same] at paid
    rw [produced]
    exact ((paid b ok).2 (assisted _ settled)).1

/-- When a call has come to its end and no node fell back on the processor, the counters have grown by
the transfers of its plan. -/
theorem total (charged : c.Charged p id begun posts spent) (offloads : p.Offloads e)
    (hosted : begun.Hosted) (accounts : c.run.Accounts p c.history [])
    (gone : (c.crew p).allGone = true) (healthy : c.run.dispatch.failure = none)
    (none_ : c.run.dispatch.remaining = 0)
    (assisted : ∀ s ∈ c.history.settled, s.2.record.fellBack = false) {known : List Deposit}
    {content : Nat → Ciphertext}
    (reads : ∀ slot b, c.history.stored? p begun slot = some b → b.Reads known (content slot)) :
    c.run.resources.devices.counters =
      begun.resources.devices.counters + p.transfers content := by
  have each : ∀ x ∈ spent, x.2 = p.bill content x.1.1 := by
    rintro ⟨⟨i, done⟩, n⟩ mem
    have settled : (i, done) ∈ c.history.settled :=
      charged.settled ▸ List.mem_map.mpr ⟨_, mem, rfl⟩
    obtain ⟨alive, b, ok, stored⟩ := accounts.stored offloads.sound healthy settled
    obtain ⟨inputs, fed, paid⟩ := charged.paid _ mem
    obtain ⟨out, counted⟩ := (paid b ok).2 (assisted _ settled)
    exact counted.trans (offloads.charge_eq alive fed.slots
      (fun x mem => charged.places hosted assisted (fed.stored x mem))
      (fun x mem => reads _ _ (fed.stored x mem)) out (reads _ _ stored))
  have bills : spent.map Prod.snd = (c.history.settled.map Prod.fst).map (p.bill content) := by
    rw [← charged.settled, List.map_map, List.map_map]
    exact List.map_congr_left each
  rw [charged.finished gone, bills,
    ((accounts.settled_perm offloads.sound healthy none_).map _).sum_eq, Plan.sum_bill]

end Chronicle.Charged

/-! ## calls -/

/-- Ciphertexts that the values of a call may have: those of arguments that are read are those that were
put in place, and each live node has one that primitives made of those that it reads. -/
structure Plan.Carries (p : Plan) (e : Environment) (supplied : List (ValueId × Value))
    (content : Nat → Ciphertext) : Prop where
  argument : ∀ k v id, p.graph.arguments[k]? = some (v, id) → p.consumers k ≠ 0 →
    Run.argument e supplied v id = .ok (.ofHost v id (.ciphertext (content k)))
  made : ∀ i ∈ p.liveIndices, ∃ keys nonce,
    e.primitives.run (p.graph.node i).op ((p.graph.inputsOf i).map content) keys nonce =
      .done (content (p.graph.outputSlot i))

/-- A call that answers values has not failed. -/
theorem Run.healthy_of_finish {p : Plan} {r : Run} {values : List (ValueId × Value)}
    (ok : (r.finish p (.ok ())).1 = .ok values) : r.dispatch.failure = none := by
  unfold Run.finish at ok
  cases failed : r.dispatch.failure with
  | some f => simp [failed] at ok
  | none => rfl

section Calls

variable {e : Environment} {p : Plan} {supplied : List (ValueId × Value)} {resources : Resources}
  {run : Run} {asked : Partition → Prop} {handed : Partition → KeySet → Prop}

/-- If no fallback is told, no node fell back on the processor. -/
theorem Run.Accounts.assisted {r : Run} {es : History} (a : r.Accounts p es [])
    (told : (r.finish p (.ok ())).2.1.fallbacks = 0) :
    ∀ s ∈ es.settled, s.2.record.fellBack = false := by
  intro s mem
  obtain ⟨peakLive, trace⟩ := r.trace_finish p (.ok ())
  rw [trace, a.trace] at told
  simpa using List.countP_eq_zero.mp told _ (List.mem_map.mpr ⟨s, mem, rfl⟩)

/-- At the end of a call that is well, what was asked for is on the host, so that nothing is counted
any more. -/
theorem Plan.finish_chronicle (sound : p.Sound)
    (bound : Run.bind e p supplied p.graph.arguments.toList (Run.initial p resources) =
      (.ok (), run)) {workers : Nat} {ms : List Move}
    (gone : ((p.chronicle e run workers ms).crew p).allGone = true) {r : Run}
    (ended : (p.chronicle e run workers ms).run = r) (healthy : r.dispatch.failure = none) :
    r.dispatch.remaining = 0 ∧
      (∀ values, (r.finish p (.ok ())).1 = .ok values →
        List.Forall₂ (fun q a => a.1 = q.1 ∧ ∃ b, r.arena.get? q.2 = some b ∧ b.payload = .host a.2)
          p.requested values) ∧
      (r.finish p (.ok ())).2.2.devices.counters = r.resources.devices.counters := by
  have crew := p.crew_chronicle e run workers ms
  obtain ⟨shelf, done, lost, ledger, past⟩ := (Ledger.crew (C := Conduct.confined e p) sound trivial
    Stock.admits_confined bound workers ms).finished (crew ▸ gone)
  rw [← crew] at ledger past
  replace ledger : Ledger (Conduct.confined e p) r shelf [] [] [] done lost := ended ▸ ledger
  have none_ : r.dispatch.remaining = 0 :=
    (show r.Over from ended ▸ past).resolve_left fun ill => ill healthy
  obtain ⟨values, r', collected, kept, -, -, -, fits⟩ := ledger.collects sound none_
  refine ⟨none_, fun values' ok => ?_, ?_⟩
  · obtain rfl : values = values' := by simpa [Run.finish, healthy, collected] using ok
    exact fits.imp fun q a fit => ⟨fit.1, fit.2.2⟩
  · simp only [Run.finish, healthy, collected, Resources.counters_drop, kept]

/-- When all live nodes are settled, the contents of the slots are those that a call carries. -/
theorem Chronicle.Recounts.carries {c : Chronicle} {known : List Deposit}
    (recounts : c.Recounts e p asked handed run known) (sound : p.Sound)
    (bound : Run.bind e p supplied p.graph.arguments.toList (Run.initial p resources) =
      (.ok (), run)) (apart : resources.devices.ids.Nodup)
    (primitives : ∀ place ps, e.Offers resources place ps → ps = e.primitives)
    (accounts : c.run.Accounts p c.history []) (healthy : c.run.dispatch.failure = none)
    (none_ : c.run.dispatch.remaining = 0) :
    ∃ content, p.Carries e supplied content ∧
      ∀ slot b, c.history.stored? p run slot = some b → b.Reads known (content slot) := by
  obtain ⟨begun, same⟩ := Run.begun_of_bind sound bound
  obtain ⟨content, reads, ran⟩ := recounts.exists_content
  refine ⟨content, ⟨fun k v id there read => ?_, fun i live => ?_⟩, reads⟩
  · have inside : k < p.graph.arguments.size := (Array.getElem?_eq_some_iff.mp there).1
    have argued : p.graph.producer? k = none := by simp [Graph.producer?, inside]
    obtain ⟨b, stored⟩ := Option.isSome_iff_exists.mp
      (History.stored?_isSome sound begun accounts.kept_live (.inl inside) read)
    have found : run.arena.get? k = some b := by rwa [History.stored?, argued] at stored
    obtain ⟨v', id', x, there', host, argument⟩ := Run.exists_argument sound bound found
    obtain ⟨rfl, rfl⟩ := Prod.mk.inj (Option.some.inj (there.symm.trans there'))
    rcases (reads k b stored).cases with host' | ⟨place, device, -⟩
    · rwa [Payload.host.inj (host.symm.trans host')] at argument
    · simp [host] at device
  · obtain ⟨⟨i, done⟩, settled, rfl⟩ := List.mem_map.mp
      ((accounts.settled_perm sound healthy none_).mem_iff.mpr live)
    obtain ⟨-, b, ok, stored⟩ : _ ∧ ∃ b, done.result = .ok b ∧ c.history.stored? p run _ = some b :=
      accounts.stored sound healthy settled
    obtain ⟨-, ct, has, offers, -, -, -, -, given, made⟩ := ran _ settled b ok
    rw [same] at offers given
    rw [primitives _ _ offers, given fun _ _ => apart] at made
    rw [(reads _ b stored).unique recounts.follows.devices has]
    exact ⟨_, _, made⟩

/-- A call that answers values, and in which no node fell back on the processor, answers contents of
slots, and its device has counted what the plan tells of them. -/
theorem Plan.MayReturn.transfers (offloads : p.Offloads e) (covers : e.Within asked)
    (order : resources.InOrder asked) (size : resources.devices.devices.size = 1)
    (primitives : ∀ place ps, e.Offers resources place ps → ps = e.primitives) {workers : Nat}
    {answer : Answer} (h : p.MayReturn e workers supplied resources answer)
    {values : List (ValueId × Value)} (ok : answer.1 = .ok values)
    (assisted : answer.2.1.fallbacks = 0) :
    ∃ content, p.Carries e supplied content ∧
      values = p.requested.map (fun q => (q.1, .ciphertext (content q.2))) ∧
      answer.2.2.devices.counters = resources.devices.counters + p.transfers content := by
  have sound := offloads.sound
  have encrypts : e.mode ≠ .simulation := by simp [offloads.mode]
  have apart : resources.devices.ids.Nodup := by
    rw [Inventory.ids]
    obtain ⟨d, one⟩ := List.length_eq_one_iff.mp (Array.length_toList.trans size)
    rw [one]
    exact List.nodup_singleton _
  cases h with
  | refused bound => contradiction
  | @finished run ms bound gone =>
      have crew := p.crew_chronicle e run workers ms
      rw [← crew] at ok assisted gone ⊢
      obtain ⟨begun, same⟩ := Run.begun_of_bind sound bound
      obtain ⟨course, -⟩ := (Plan.valid_chronicle sound begun workers ms).finished gone
      have accounts := course.accounts sound begun.toFresh
      have healthy : (p.chronicle e run workers ms).run.dispatch.failure = none :=
        Run.healthy_of_finish ok
      obtain ⟨none_, collects, kept⟩ := Plan.finish_chronicle sound bound gone rfl healthy
      obtain ⟨known, recounts⟩ := Plan.recounts sound encrypts covers order bound workers ms
      obtain ⟨content, carries, reads⟩ := recounts.carries sound bound apart primitives
        accounts healthy none_
      have hosted := Run.hosted sound encrypts bound
      obtain ⟨posts, spent, charged⟩ := (Chronicle.Charged.initial (p := p) (same ▸ size) rfl
        (min (max workers 1) run.dispatch.remaining)).moves offloads begun hosted (.initial _) ms
      have counted := charged.total offloads hosted accounts gone healthy none_
        (accounts.assisted assisted) reads
      refine ⟨content, carries, ?_, ?_⟩
      · rw [← List.forall₂_eq_eq_eq, List.forall₂_map_right_iff]
        refine List.Forall₂.flip ((collects values ok).imp ?_)
        rintro q ⟨v, x⟩ ⟨rfl, b, found, host⟩
        have stored := ((course.shelves sound begun).found q.2).symm.trans found
        split at stored
        · rcases (reads q.2 b stored).cases with host' | ⟨place, device, -⟩
          · exact Prod.ext rfl (Payload.host.inj (host.symm.trans host'))
          · simp [host] at device
        · contradiction
      · rw [same] at counted
        exact kept.trans counted

end Calls

end HomCircuit
