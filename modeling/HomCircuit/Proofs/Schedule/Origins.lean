import HomCircuit.Proofs.Backend.Memory
import HomCircuit.Proofs.Remote.Origin
import HomCircuit.Proofs.Schedule.Devices

/-!
# HomCircuit.Proofs.Schedule.Origins

What the result of a node was made of, on any backend, whatever its primitives and whatever becomes of
devices and links meanwhile.

```
processor   primitives of the context   keys of its manager   nonce of all inputs
remote      primitives of the worker    keys of the worker    nonce of all inputs
device      primitives of the device    keys of its manager   nonce of the inputs on the host
```

Nothing is asked of the backends but that they are in order between two operations: no device has given
a number twice, and no link has broken the laws of deliveries. They may fail at any time.

* `Node.Ran` — a ciphertext with what it was made of, and `Placement.sees`, the words of its nonce;
* `Resources.InOrder`, `Resources.Follows` — what is asked of resources, and what is known of them since
  a call began;
* `learns_runOn`, `learns_perform` — the ciphertext of a node was made as told for its place.
-/

namespace HomCircuit

/-! ## what a ciphertext was made of -/

/-- The words that the nonce of a node is made of: those of all its inputs, but on a device those of its
inputs on the host alone. -/
def Placement.sees : Placement → List Ciphertext → List Ciphertext → List Ciphertext
  | .accelerator _, _, onHost => onHost
  | _, words, _ => words

/-- The key sets of a place: a remote worker has those that it generated for partitions that it was asked
for, and all others have those that the key manager of the context has handed out. -/
def Placement.Holds (seed : KeySeed) (asked : Partition → Prop)
    (handed : Partition → KeySet → Prop) : Placement → Partition → KeySet → Prop
  | .remote _, q, k => (KeyId.of q seed).Generates asked k
  | _, q, k => handed q k

/-- The words of the buffers that are on the host. -/
def hostWords (bs : List Buffer) : List Ciphertext :=
  bs.filterMap fun b => b.hostValue? >>= Value.ciphertext?

/-- All partitions of a call are among those that remote workers are asked for. -/
def Environment.Within (asked : Partition → Prop) (e : Environment) : Prop :=
  ∀ id q, e.partition id = .ok q → asked q

/-- The primitives of a place. -/
inductive Environment.Offers (e : Environment) (r : Resources) : Placement → Primitives → Prop
  | cpu : e.Offers r .cpu e.primitives
  | accelerator {i : Nat} (inside : i < r.devices.devices.size) :
      e.Offers r (.accelerator (r.devices.device i).id) (r.devices.device i).primitives
  | remote {w : Nat} {worker : RemoteWorker} (there : r.remotes[w]? = some worker) :
      e.Offers r (.remote w) worker.options.primitives

/-- A ciphertext that a node was given at a place: the primitives of the place made it of the words of all
inputs, under key sets of the place, and the nonce is that of the words which the place sees. A device
was handed other words only where two devices share a number. -/
inductive Node.Ran (e : Environment) (r : Resources) (asked : Partition → Prop)
    (handed : Partition → KeySet → Prop) (n : Node) (words onHost : List Ciphertext)
    (place : Placement) (ct : Ciphertext) : Prop
  | intro {ps : Primitives} {q : Partition} {source : Option Partition} {keys : OperationKeys}
      {given : List Ciphertext} (offers : e.Offers r place ps)
      (known : e.partition n.partition = .ok q) (found : sourcePartition e n = .ok source)
      (output : place.Holds e.seed asked handed q keys.output)
      (input : Option.Rel (place.Holds e.seed asked handed) source keys.input)
      (same : (∀ d, place = .accelerator d → r.devices.ids.Nodup) → given = words)
      (made : ps.run n.op given keys (nodeNonce n.id (place.sees words onHost)) = .done ct)

/-! ## resources -/

/-- No device has given a number twice, and every remote worker is between two calls. -/
structure Resources.InOrder (asked : Partition → Prop) (r : Resources) : Prop where
  devices : r.devices.Numbered
  remotes : ∀ w ∈ r.remotes, w.Linked asked

/-- What is known of resources since a call began: which words were put where on devices, and that the
remote workers are the same. -/
structure Resources.Follows (asked : Partition → Prop) (begun : Resources) (known : List Deposit)
    (r : Resources) : Prop where
  devices : begun.devices.Knows r.devices known
  remotes : List.Forall₂ (fun w₀ w => w.options = w₀.options ∧ w.Linked asked) begun.remotes r.remotes

namespace Resources

variable {asked : Partition → Prop} {begun r r' : Resources} {known own own' : List Deposit}

/-- Before anything happened. -/
theorem InOrder.follows (h : r.InOrder asked) : r.Follows asked [] r where
  devices := ⟨.of_devices rfl, h.devices, nofun, nofun⟩
  remotes := List.forall₂_same.mpr fun w mem => ⟨rfl, h.remotes w mem⟩

/-- Resources stay in order. -/
theorem Follows.inOrder (h : r.Follows asked known r') : r'.InOrder asked where
  devices := h.devices.numbered
  remotes w mem := by
    obtain ⟨i, inside, rfl⟩ := List.mem_iff_getElem.mp mem
    exact ((List.forall₂_iff_get.mp h.remotes).2 i (h.remotes.length_eq ▸ inside) inside).2

theorem Follows.mono (h : begun.Follows asked known r) (sub : own ⊆ known) :
    begun.Follows asked own r :=
  ⟨h.devices.mono sub, h.remotes⟩

/-- Devices may go on, as long as the remote workers are left alone. -/
theorem Follows.after (h : begun.Follows asked known r) (later : r.devices.Later r'.devices)
    (same : r'.remotes = r.remotes) : begun.Follows asked known r' :=
  ⟨h.devices.after later, same ▸ h.remotes⟩

theorem Follows.drop (h : begun.Follows asked known r) (bs : List Buffer) :
    begun.Follows asked known (r.drop bs) :=
  h.after (r.later_drop bs) rfl

theorem Follows.recordFallback (h : begun.Follows asked known r) :
    begun.Follows asked known r.recordFallback :=
  h.after r.later_recordFallback rfl

theorem Follows.announce (h : begun.Follows asked known r) (ps : Primitives)
    (calls : List PrimitiveCall) :
    begun.Follows asked known (calls.foldl (Resources.announce ps) r) := by
  induction calls generalizing r with
  | nil => exact h
  | cons c calls ih => exact ih (r := r.announce ps c) ⟨h.devices, h.remotes⟩

/-- One remote worker has changed. -/
theorem Follows.setRemote (h : begun.Follows asked known r) {i : Nat} {w w' : RemoteWorker}
    (there : r.remotes[i]? = some w) (options : w'.options = w.options)
    (linked : w.Linked asked → w'.Linked asked) :
    begun.Follows asked known { r with remotes := r.remotes.set i w' } := by
  refine ⟨h.devices, List.forall₂_iff_get.mpr ⟨?_, fun k lt lt' => ?_⟩⟩
  · rw [List.length_set, h.remotes.length_eq]
  · have inside : k < r.remotes.length := by simpa using lt'
    have old := (List.forall₂_iff_get.mp h.remotes).2 k lt inside
    simp only [List.get_eq_getElem] at old ⊢
    rw [List.getElem_set]
    split
    · next same =>
        subst same
        obtain ⟨_, here⟩ := List.getElem?_eq_some_iff.mp there
        rw [here] at old
        exact ⟨options.trans old.1, linked old.2⟩
    · exact old

theorem Follows.remote (h : begun.Follows asked known r) {i : Nat} {w : RemoteWorker}
    (there : r.remotes[i]? = some w) :
    ∃ w₀, begun.remotes[i]? = some w₀ ∧ w.options = w₀.options ∧ w.Linked asked := by
  obtain ⟨inside, rfl⟩ := List.getElem?_eq_some_iff.mp there
  have first : i < begun.remotes.length := h.remotes.length_eq ▸ inside
  exact ⟨begun.remotes[i], List.getElem?_eq_getElem first,
    (List.forall₂_iff_get.mp h.remotes).2 i first inside⟩

theorem Follows.queueUp (h : begun.Follows asked known r) (worker : Nat) :
    begun.Follows asked known (r.queueUp worker).2 := by
  unfold Resources.queueUp
  cases there : r.remotes[worker]? with
  | none => exact h
  | some w => exact h.setRemote there rfl fun linked => linked.withQueue _

theorem Follows.leaveLink (h : begun.Follows asked known r) (worker : Nat) :
    begun.Follows asked known (r.leaveLink worker) := by
  unfold Resources.leaveLink
  cases there : r.remotes[worker]? with
  | none =>
      rw [List.modify_eq_self (List.getElem?_eq_none_iff.mp there)]
      exact h
  | some w =>
      rw [List.modify_eq_set_getElem?, there]
      exact h.setRemote there rfl fun linked => linked.withQueue _

/-- A remote worker that returns a ciphertext made it of the words and the nonce that it was handed. -/
theorem Follows.runRemote (h : begun.Follows asked known r) (worker : Nat) (n : Node) {p : Partition}
    {source : Option Partition} (own : asked p) (other : ∀ q, source = some q → asked q)
    (seed : KeySeed) (inputs : List Ciphertext) (nonce : UInt64) :
    begun.Follows asked known (r.runRemote worker n p source seed inputs nonce).2 ∧
      ∀ ct, (r.runRemote worker n p source seed inputs nonce).1.1 = .ok ct →
        ∃ w₀ keys, begun.remotes[worker]? = some w₀ ∧ GeneratedKeys asked p source seed keys ∧
          w₀.options.primitives.run n.op inputs keys nonce = .done ct := by
  unfold Resources.runRemote
  cases there : r.remotes[worker]? with
  | none => exact ⟨h, nofun⟩
  | some w =>
      obtain ⟨w₀, first, options, linked⟩ := h.remote there
      obtain ⟨linked', options', made⟩ := linked.execute n own other seed inputs nonce
      refine ⟨h.setRemote there options' fun _ => linked'.takeCalls, fun ct returned => ?_⟩
      obtain ⟨keys, generated, ran⟩ := made ct returned
      rw [options] at ran
      exact ⟨w₀, keys, first, generated, ran⟩

theorem Follows.toHost (h : begun.Follows asked known r) (b : Buffer) :
    begun.Follows asked known (r.toHost b).2 := by
  refine h.after (r.later_toHost b) ?_
  unfold Resources.toHost
  split <;> rfl

/-- A host copy of a buffer has its words. -/
theorem Follows.eq_of_toHost (h : begun.Follows asked known r) {b : Buffer} {words : Ciphertext}
    (reads : b.Reads known words) {x : Value} (copied : (r.toHost b).1 = .ok x) :
    x = .ciphertext words := by
  rcases reads.cases with host | ⟨place, device, mem⟩
  · simp only [Resources.toHost, Buffer.hostValue?, host, Except.ok.injEq] at copied
    exact copied.symm
  · cases there : r.inventory with
    | none => simp [Resources.toHost, Buffer.hostValue?, device, there] at copied
    | some v =>
        have recalls := h.devices.recalls _ mem
        rw [Resources.devices, there] at recalls
        simp only [Resources.toHost, Buffer.hostValue?, Inventory.toHost, device, there] at copied
        obtain ⟨words', read, rfl⟩ := Except.exists_of_map (Except.eq_ok_of_mapError copied)
        exact congrArg Value.ciphertext (recalls.download read)

/-- A section adds to what its job knows, and takes nothing from what others know. -/
def Learns (asked : Partition → Prop) (begun : Resources) (own own' : List Deposit)
    (r r' : Resources) : Prop :=
  ∀ known, own ⊆ known → begun.Follows asked known r →
    ∃ known', known ⊆ known' ∧ own' ⊆ known' ∧ begun.Follows asked known' r'

theorem Learns.of_follows (h : ∀ known, begun.Follows asked known r → begun.Follows asked known r') :
    begun.Learns asked own own r r' :=
  fun known sub follows => ⟨known, List.Subset.refl _, sub, h known follows⟩

end Resources

/-! ## jobs of a node -/

/-- What primitives made is there before its errors are told in other words. -/
theorem Outcome.eq_done_of_mapError {ε ε' α : Type} {f : ε → ε'} {o : Outcome ε α} {a : α}
    (h : o.mapError f = .done a) : o = .done a := by
  cases o with
  | done a' => rw [Outcome.done.inj h]
  | _ => contradiction

/-- What a worker finds when a section of its node begins: resources of which it knows something, keys
that are handed out as told, and the inputs in their slots. -/
structure Run.Finds (e : Environment) (asked : Partition → Prop)
    (handed : Partition → KeySet → Prop) (begun : Resources) (inputs : List Shelved)
    (own : List Deposit) (r : Run) : Prop where
  follows : begun.Follows asked own r.resources
  hands : ∀ q shared, (r.resources.keys.getOrCreate q e.seed).1 = .ok shared → handed q shared.keys
  found : ∀ x ∈ inputs, r.arena.get? x.slot = some x.buffer

/-- What a section of a node adds to what is known beside `base`. -/
def Run.Learns (asked : Partition → Prop) (begun : Resources) (base own own' : List Deposit)
    (r r' : Run) : Prop :=
  begun.Learns asked (own ++ base) (own' ++ base) r.resources r'.resources

/-- A job of a node that gives a result as told for what is known at its end beside `base`; nothing is
told of its errors. -/
def NodeJob.Learns {α : Type} (e : Environment) (asked : Partition → Prop)
    (handed : Partition → KeySet → Prop) (begun : Resources) (inputs : List Shelved) (base : List Deposit)
    (good : List Deposit → α → Prop) (own : List Deposit) (j : NodeJob α) : Prop :=
  j.Tracks (fun own => Run.Finds e asked handed begun inputs (own ++ base))
    (Run.Learns asked begun base) good (fun _ _ => True) own

section Node

variable {e : Environment} {p : Plan} {asked : Partition → Prop}
  {handed : Partition → KeySet → Prop} {begun : Resources}
  {inputs : List Shelved} {base own : List Deposit} {n : Node} {q : Partition} {i : Nat}
  {words : List Ciphertext}

namespace NodeJob

variable {α β : Type} {good : List Deposit → α → Prop}

theorem Learns.bind {P : List Deposit → α → Prop} {goal : List Deposit → β → Prop} {j : NodeJob α}
    {k : α → NodeJob β} (h : j.Learns e asked handed begun inputs base P own)
    (hk : ∀ own' a, P own' a → (k a).Learns e asked handed begun inputs base goal own') :
    (j >>= k).Learns e asked handed begun inputs base goal own :=
  Tracks.bind h hk

/-- A step that leaves what is known as it is. -/
theorem Learns.andThen {goal : List Deposit → β → Prop} {j : NodeJob α} {k : α → NodeJob β}
    {P : α → Prop} (h : j.Learns e asked handed begun inputs base (fun own' a => own' = own ∧ P a) own)
    (hk : ∀ a, P a → (k a).Learns e asked handed begun inputs base goal own) :
    (j >>= k).Learns e asked handed begun inputs base goal own := by
  refine .bind h ?_
  rintro own' a ⟨rfl, here⟩
  exact hk a here

theorem Learns.ofExcept {r : Except RunError α} (h : ∀ a, r = .ok a → good own a) :
    (NodeJob.ofExcept r).Learns e asked handed begun inputs base good own := by
  cases r with
  | ok a => exact h a rfl
  | error err => exact trivial

theorem Learns.ofOutcome {o : Outcome RunError α} (h : o.Gives (good own)) :
    (NodeJob.ofOutcome n o).Learns e asked handed begun inputs base good own := by
  cases o with
  | done a => exact h a rfl
  | failed err => exact trivial
  | crashed text => exact trivial

theorem Learns.tell {calls : List PrimitiveCall} :
    (NodeJob.tell calls).Learns e asked handed begun inputs base
      (fun own' _ => own' = own ∧ True) own :=
  Tracks.lift (.tell ⟨rfl, trivial⟩)

theorem Learns.wait {ready : Resources → Bool} :
    (NodeJob.wait ready).Learns e asked handed begun inputs base
      (fun own' _ => own' = own ∧ True) own :=
  Tracks.lift (show Job.Tracks _ _ _ own (.await _ (.done ())) from ⟨rfl, trivial⟩)

/-- A section on the resources that takes nothing from what is known. -/
theorem Learns.onResources {act : Resources → α × Resources} {P : α → Prop}
    (h : ∀ r : Run, Run.Finds e asked handed begun inputs (own ++ base) r →
      (∀ known, begun.Follows asked known r.resources →
        begun.Follows asked known (act r.resources).2) ∧
        P (act r.resources).1) :
    (NodeJob.onResources act).Learns e asked handed begun inputs base (fun own' a => own' = own ∧ P a)
      own := by
  refine Tracks.lift (.atomic fun r finds => ?_)
  obtain ⟨kept, here⟩ := h r finds
  exact ⟨own, .of_follows kept, rfl, here⟩

theorem Learns.tryResources {act : Resources → Except RunError α × Resources} {P : α → Prop}
    (h : ∀ r : Run, Run.Finds e asked handed begun inputs (own ++ base) r →
      (∀ known, begun.Follows asked known r.resources →
        begun.Follows asked known (act r.resources).2) ∧
        ∀ a, (act r.resources).1 = .ok a → P a) :
    (NodeJob.tryResources act).Learns e asked handed begun inputs base
      (fun own' a => own' = own ∧ P a) own :=
  .andThen (P := fun r => ∀ a, r = .ok a → P a) (.onResources h) fun _ here =>
    .ofExcept fun a same => ⟨rfl, here a same⟩

end NodeJob

/-- The words of buffers, wherever they are. -/
theorem learns_hostCiphertexts {bs : List Buffer}
    (reads : List.Forall₂ (fun b w => b.Reads base w) bs words) :
    (hostCiphertexts bs).Learns e asked handed begun inputs base
      (fun own' ws => own' = own ∧ ws = words) own := by
  induction reads with
  | nil => exact ⟨rfl, rfl⟩
  | @cons b w bs words first rest ih =>
      refine .andThen (P := (· = .ciphertext w)) (.tryResources fun r finds => ?_) ?_
      · refine ⟨fun known follows => follows.toHost b, fun x copied => ?_⟩
        exact finds.follows.eq_of_toHost (first.mono (List.subset_append_right own base)) copied
      · rintro v rfl
        refine .andThen ih ?_
        rintro ws rfl
        exact ⟨rfl, rfl⟩

theorem learns_fetchKeys (q : Partition) :
    (NodeJob.tryResources (Resources.fetchKeys q e.seed)).Learns e asked handed begun inputs base
      (fun own' k => own' = own ∧ handed q k) own := by
  refine .tryResources fun r finds => ⟨fun known follows => ⟨follows.devices, follows.remotes⟩, ?_⟩
  intro k fetched
  obtain ⟨shared, answered, rfl⟩ := Except.exists_of_map (Except.eq_ok_of_mapError fetched)
  exact finds.hands q shared answered

/-- A node is handed keys of its own partition, and of the one that it starts from. -/
theorem learns_keysFor :
    (keysFor e n q).Learns e asked handed begun inputs base
      (fun own' k => own' = own ∧ handed q k.output ∧
        ∃ source, sourcePartition e n = .ok source ∧ Option.Rel handed source k.input) own := by
  refine .andThen (learns_fetchKeys q) fun output own => ?_
  refine .andThen (P := fun source => sourcePartition e n = .ok source)
    (.ofExcept fun source found => ⟨rfl, found⟩) fun source found => ?_
  cases source with
  | none => exact ⟨rfl, own, none, found, .none⟩
  | some source =>
      refine .andThen (learns_fetchKeys source) fun input other => ?_
      exact ⟨rfl, own, some source, found, .some other⟩

/-- A payload that a node was given at a place, with a ciphertext that was made as told. -/
def Node.Gave (e : Environment) (asked : Partition → Prop) (handed : Partition → KeySet → Prop)
    (begun : Resources) (n : Node) (words onHost : List Ciphertext) (own : List Deposit)
    (payload : Payload) (place : Placement) : Prop :=
  ∃ ct, (∀ v id, (⟨v, id, payload⟩ : Buffer).Reads own ct) ∧
    n.Ran e begun asked handed words onHost place ct

/-- A node on the processor sees all its inputs. -/
theorem learns_runOnProcessor (known : e.partition n.partition = .ok q) {bs : List Buffer}
    (reads : List.Forall₂ (fun b w => b.Reads base w) bs words) (onHost : List Ciphertext) :
    (runOnProcessor e n q bs).Learns e asked handed begun inputs base
      (fun own' payload => n.Gave e asked handed begun words onHost (own' ++ base) payload .cpu)
      own := by
  refine .andThen (learns_hostCiphertexts reads) ?_
  rintro ws rfl
  refine .andThen learns_keysFor fun keys ⟨output, source, found, input⟩ => ?_
  refine .andThen .tell fun _ _ => ?_
  refine .andThen (P := fun ct => e.primitives.run n.op ws keys (nodeNonce n.id ws) = .done ct)
    (.ofOutcome fun ct ran => ⟨rfl, Outcome.eq_done_of_mapError ran⟩) fun ct ran => ?_
  exact ⟨ct, fun _ _ => Buffer.reads_host rfl, .cpu, known, found, output, input, fun _ => rfl, ran⟩

/-- The source of a node is one of the partitions. -/
theorem exists_of_sourcePartition {source : Partition}
    (found : sourcePartition e n = .ok (some source)) : ∃ id, e.partition id = .ok source := by
  unfold sourcePartition at found
  split at found
  · obtain ⟨source', known, same⟩ := Except.exists_of_map found
    exact ⟨_, Option.some.inj same ▸ known⟩
  · simp at found

/-- A node on a remote worker sees all its inputs, and the worker uses keys that it has generated. -/
theorem learns_runOnRemote (covers : e.Within asked) (known : e.partition n.partition = .ok q)
    {bs : List Buffer}
    (reads : List.Forall₂ (fun b w => b.Reads base w) bs words) (onHost : List Ciphertext)
    (worker : Nat) :
    (runOnRemote e worker n q bs).Learns e asked handed begun inputs base
      (fun own' payload =>
        n.Gave e asked handed begun words onHost (own' ++ base) payload (.remote worker)) own := by
  have sent : (do
      let words ← hostCiphertexts bs
      let nonce := nodeNonce n.id words
      let source ← .ofExcept (sourcePartition e n)
      let ticket ← NodeJob.onResources (Resources.queueUp worker)
      NodeJob.wait (Resources.mayUse worker ticket)
      let answer ← NodeJob.onResources
        (Resources.runRemote worker n q source e.seed words nonce)
      NodeJob.tell answer.2
      NodeJob.onResources fun r => ((), r.leaveLink worker)
      return .host (.ciphertext (← .ofExcept answer.1)) : NodeJob Payload).Learns e asked handed begun
      inputs base (fun own' payload =>
        n.Gave e asked handed begun words onHost (own' ++ base) payload (.remote worker))
      own := by
    refine .andThen (learns_hostCiphertexts reads) ?_
    rintro ws rfl
    refine .andThen (P := fun source => sourcePartition e n = .ok source)
      (.ofExcept fun source found => ⟨rfl, found⟩) fun source found => ?_
    refine .andThen (P := fun _ => True)
      (.onResources fun r _ => ⟨fun known h => h.queueUp worker, trivial⟩) fun ticket _ => ?_
    refine .andThen .wait fun _ _ => ?_
    refine .andThen (P := fun answer => ∀ ct, answer.1 = .ok ct →
      n.Ran e begun asked handed ws onHost (.remote worker) ct) (.onResources fun r finds => ?_)
      fun answer made => ?_
    · have other : ∀ q, source = some q → asked q := by
        rintro q rfl
        obtain ⟨id, there⟩ := exists_of_sourcePartition found
        exact covers id q there
      have own := covers _ q known
      refine ⟨fun _ h => (h.runRemote worker n own other e.seed ws _).1, fun ct returned => ?_⟩
      obtain ⟨w₀, keys, there, ⟨output, input⟩, ran⟩ :=
        (finds.follows.runRemote worker n own other e.seed ws _).2 ct returned
      exact ⟨.remote there, known, found, output, input, fun _ => rfl, ran⟩
    · refine .andThen .tell fun _ _ => .andThen (P := fun _ => True)
        (.onResources fun r _ => ⟨fun known h => h.leaveLink worker, trivial⟩) fun _ _ => ?_
      refine .andThen (P := fun ct => n.Ran e begun asked handed ws onHost (.remote worker) ct)
        (.ofExcept fun ct returned => ⟨rfl, made ct returned⟩) fun ct ran => ?_
      exact ⟨ct, fun _ _ => Buffer.reads_host rfl, ran⟩
  refine .andThen (P := fun _ => True) (.onResources fun r _ => ⟨fun known h => h, trivial⟩)
    fun there _ => ?_
  cases there
  · exact .andThen (P := fun _ => True) (.ofExcept nofun) fun _ _ => sent
  · exact sent

/-- A node on a device sees the inputs that are on the host. -/
theorem learns_runOnDevice (known : e.partition n.partition = .ok q) {bs : List Buffer}
    (reads : List.Forall₂ (fun b w => b.Reads base w) bs words) :
    (runOnDevice e p i n q bs).Learns e asked handed begun inputs base
      (fun own' out =>
        n.Gave e asked handed begun words (hostWords bs) (own' ++ base) out.1 (.accelerator out.2))
      base := by
  refine .andThen learns_keysFor fun keys ⟨output, source, found, input⟩ => ?_
  have operates := @Inventory.learns_operate begun.devices base n.op bs words keys
    (nodeNonce n.id (hostWords bs)) (p.isResident i) reads
  refine .bind (P := fun own' out => out.Gives fun out => ∃ d ct,
      out.2 = (begun.devices.device d).id ∧
      (∀ v id, (⟨v, id, out.1⟩ : Buffer).Reads own' ct) ∧
      begun.devices.Makes d n.op words keys (nodeNonce n.id (hostWords bs)) ct)
    (NodeJob.Tracks.lift (operates.within ?_ ?_)) ?_
  · exact fun own r finds => finds.follows.devices.mono (List.subset_append_left own base)
  · intro own own' r v finds learns known sub follows
    obtain ⟨known', more, here, knows⟩ :=
      learns known (List.append_subset.mp sub).1 follows.devices
    have base := List.Subset.trans (List.append_subset.mp sub).2 more
    exact ⟨known', more, List.append_subset.mpr ⟨here, base⟩, knows, follows.remotes⟩
  · intro own' out gives
    refine .ofOutcome fun made done => ?_
    obtain ⟨d, ct, device, reads, inside, given, same, ran⟩ :=
      gives made (Outcome.eq_done_of_mapError done)
    refine ⟨ct, fun v id => (reads v id).mono (List.subset_append_left own' base), ?_⟩
    rw [device]
    exact ⟨.accelerator inside, known, found, output, input, fun apart => same (apart _ rfl), ran⟩

/-- A node where it was decided to run was given a ciphertext that was made as told for this place. -/
theorem learns_runOn (covers : e.Within asked) (known : e.partition n.partition = .ok q)
    {bs : List Buffer}
    (reads : List.Forall₂ (fun b w => b.Reads base w) bs words) {target : Target}
    (encrypts : target ≠ .simulation) :
    Job.Tracks (fun own => Run.Finds e asked handed begun inputs (own ++ base))
      (Run.Learns asked begun base)
      (fun own' ran => ∀ payload, ran.1 = .ok payload →
        n.Gave e asked handed begun words (hostWords bs) (own' ++ base) payload ran.2.1) base
      (runOn e p target i n q bs) := by
  have told {own' : List Deposit} {r : Except RunError Payload} {place : Placement}
      (h : Settles (fun payload =>
        n.Gave e asked handed begun words (hostWords bs) (own' ++ base) payload place)
        (fun _ => True) r) :
      ∀ payload, r = .ok payload →
        n.Gave e asked handed begun words (hostWords bs) (own' ++ base) payload place := by
    rintro payload rfl
    exact h
  cases target with
  | simulation => exact absurd rfl encrypts
  | cpu => exact .bind (learns_runOnProcessor known reads _) fun own' r h => told h
  | remote w => exact .bind (learns_runOnRemote covers known reads _ w) fun own' r h => told h
  | accelerator =>
      refine .bind (learns_runOnDevice known reads) fun own' r h => ?_
      cases r with
      | ok made =>
          obtain ⟨payload, device⟩ := made
          exact told (r := .ok payload) h
      | error err =>
          dsimp only
          split
          · -- whatever the device has left, the processor reads the inputs by what was known before
            refine .bind (P := fun own'' _ => own'' = own') (.change fun r _ => ?_) ?_
            · exact ⟨own', .of_follows fun _ follows => follows.recordFallback, rfl⟩
            · rintro own'' - rfl
              exact .bind (learns_runOnProcessor known reads _) fun own' r h => told h
          · exact nofun

/-- Nodes run on stand-ins in a simulation alone. -/
theorem choose_ne_simulation {mode : Mode} (encrypts : mode ≠ .simulation) (devices : Bool)
    (worker : Option Nat) : (choose n mode devices worker).target ≠ .simulation := by
  cases mode with
  | simulation => exact absurd rfl encrypts
  | cpu => cases worker <;> exact nofun
  | accelerator =>
      cases worker with
      | some w => exact nofun
      | none =>
          simp only [choose]
          split
          · exact nofun
          · split <;> exact nofun

/-- A node reads its inputs, and if it gives a buffer, this has a ciphertext that was made as told for the
place on record. -/
theorem learns_perform (encrypts : e.mode ≠ .simulation) (covers : e.Within asked)
    (slots : inputs.map Shelved.slot = p.graph.inputsOf i)
    (reads : List.Forall₂ (fun x w => x.buffer.Reads base w) inputs words) :
    (perform e p i).Tracks (fun own => Run.Finds e asked handed begun inputs (own ++ base))
      (Run.Learns asked begun base)
      (fun own' done => ∀ b, done.result = .ok b → ∃ ct, b.Reads (own' ++ base) ct ∧
        (p.graph.node i).Ran e begun asked handed words (hostWords (inputs.map Shelved.buffer))
          done.record.placement ct) base := by
  dsimp only [perform]
  cases known : e.partition (p.graph.node i).partition with
  | error err => exact nofun
  | ok q =>
      rw [← slots]
      refine .bind (P := fun own' r => own' = base ∧ r = .ok (inputs.map Shelved.buffer)) ?_ ?_
      · refine Job.Ensures.tracks (ensures_readInputs_shelved fun x => id) (fun r finds => finds.found)
          (fun r r' _ same => ?_) fun r settled => ?_
        · exact same ▸ .of_follows fun _ => id
        · cases r with
          | ok bs => exact ⟨rfl, congrArg _ settled⟩
          | error err => exact settled.elim
      · rintro own' r ⟨rfl, rfl⟩
        refine .bind (learns_runOn covers known (List.forall₂_map_left_iff.mpr reads)
          (choose_ne_simulation encrypts _ _)) ?_
        rintro own' ⟨result, place, fellBack⟩ gave b made
        obtain ⟨payload, ok, rfl⟩ := Except.exists_of_map made
        obtain ⟨ct, reads, ran⟩ := gave payload ok
        exact ⟨ct, reads _ _, ran⟩

end Node

end HomCircuit
