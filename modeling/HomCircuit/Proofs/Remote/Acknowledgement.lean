import HomCircuit.Proofs.Remote.Origin

/-!
# HomCircuit.Proofs.Remote.Acknowledgement

What a remote worker returns that acknowledges every delivery.

```
request  →  keys generated for its partitions  →  what the primitives of the worker make of it,
                                                  or an error where they give one
```

Such a worker never ends, and no delivery to it times out. What remains of the ways in which a call may
end is that its completion is accepted.

* `RemoteWorker.Used` — what a context does with a worker, `Linked.used`: it stays linked;
* `RemoteWorker.Acknowledges` — whatever a context does with it, a completion is accepted for every
  delivery;
* `Linked.execute_replies` — then each call returns what the worker computes of its own request;
* `RemoteWorker.acknowledges_spawn` — a worker acknowledges every delivery while its primitives do not
  crash and take no longer than the context waits.
-/

namespace HomCircuit

/-! ## completions that are accepted -/

namespace RemoteWorker

/-- The worker does not count what the context accepts. -/
@[simp]
theorem accepted_serve (w : RemoteWorker) (start : Nat) (d : DispatchFrame) :
    (w.serve start d).counters.accepted = w.counters.accepted := by
  unfold serve
  cases w.remembered.find? (·.delivery == d.delivery) with
  | some c => rfl
  | none =>
      simp only [compute]
      cases keysFor w.keys d with
      | mk keys cache =>
          cases keys with
          | error reason => rfl
          | ok keys =>
              dsimp only
              cases w.options.primitives.run d.op d.inputs keys d.nonce <;> rfl

end RemoteWorker

namespace Link

variable {s t : Link}

/-- The context counts a completion when it accepts it. -/
theorem Step.accepted (h : s.Step t) :
    t.worker.counters.accepted + s.accepted.length =
      s.worker.counters.accepted + t.accepted.length := by
  cases h with
  | serve => simp
  | accept => simp [RemoteWorker.count]; omega
  | _ => rfl

theorem Reaches.accepted (h : s.Reaches t) :
    t.worker.counters.accepted + s.accepted.length =
      s.worker.counters.accepted + t.accepted.length := by
  induction h with
  | refl => rfl
  | step _ last ih =>
      have := last.accepted
      omega

end Link

/-! ## what a context does with a worker -/

namespace RemoteWorker

/-- What a section of a call does with a worker: somebody queues up for its link or leaves it, or a
request for some partitions is sent to it. -/
inductive Used (asked : Partition → Prop) (w : RemoteWorker) : RemoteWorker → Prop
  | queue (queue : TicketQueue) : w.Used asked { w with queue }
  | execute (n : Node) {p : Partition} {source : Option Partition} (known : asked p)
      (other : ∀ q, source = some q → asked q) (seed : KeySeed) (inputs : List Ciphertext)
      (nonce : UInt64) : w.Used asked (w.execute n p source seed inputs nonce).2.takeCalls.2

/-- Whatever a context does with it, a completion is accepted for every delivery. -/
def Acknowledges (w : RemoteWorker) : Prop :=
  ∀ w', Relation.ReflTransGen (Used fun _ => True) w w' → ∀ n p source seed inputs nonce,
    (w'.execute n p source seed inputs nonce).2.counters.accepted = w'.counters.accepted + 1

variable {w w' : RemoteWorker} {asked asked' : Partition → Prop}

theorem Used.mono (u : w.Used asked w') (more : ∀ q, asked q → asked' q) : w.Used asked' w' := by
  cases u with
  | queue queue => exact .queue queue
  | execute n known other seed inputs nonce =>
      exact .execute n (more _ known) (fun q from_ => more q (other q from_)) seed inputs nonce

theorem Acknowledges.used (h : w.Acknowledges) (u : w.Used asked w') : w'.Acknowledges :=
  fun v later => h v (.head (u.mono fun _ _ => trivial) later)

theorem Linked.used (h : w.Linked asked) (u : w.Used asked w') :
    w'.Linked asked ∧ w'.options = w.options := by
  cases u with
  | queue queue => exact ⟨h.withQueue queue, rfl⟩
  | execute n known other seed inputs nonce =>
      obtain ⟨linked, options, -⟩ := h.execute n known other seed inputs nonce
      exact ⟨linked.takeCalls, options⟩

/-! ## what it returns -/

/-- A worker that has generated all its keys finds keys for valid partitions. -/
theorem keysFor_valid {c : KeyCache} (h : c.Entries (KeyId.Generates asked)) {d : DispatchFrame}
    (asks : d.Asks asked) (valid : d.partition.Valid) (valid' : ∀ q, d.source = some q → q.Valid) :
    ∃ keys, (keysFor c d).1 = .ok keys ∧ GeneratedKeys asked d.partition d.source d.seed keys := by
  cases found : (keysFor c d).1 with
  | ok keys => exact ⟨keys, rfl, (generates_keysFor h asks).1 keys found⟩
  | error reason =>
      have answers {c : KeyCache} {q : Partition} (valid : q.Valid) (err : KeyError) :
          (c.getOrCreate q d.seed).1 ≠ .error err := by
        intro refused
        have invalid := KeyCache.getOrCreate_error refused
        rw [Partition.validate_eq_ok_iff.mpr valid] at invalid
        contradiction
      have first := answers (c := c) valid
      unfold keysFor at found
      generalize c.getOrCreate d.partition d.seed = own at first found
      obtain ⟨r, c'⟩ := own
      cases r with
      | error err => exact absurd rfl (first err)
      | ok output =>
          cases from_ : d.source with
          | none => simp [from_] at found
          | some q =>
              have second := answers (c := c') (valid' q from_)
              simp only [from_] at found
              generalize c'.getOrCreate q d.seed = other at second found
              obtain ⟨r, c''⟩ := other
              cases r with
              | error err => exact absurd rfl (second err)
              | ok input => simp [Except.map, Except.mapError] at found

/-- A reply to a request for valid partitions is what the primitives make of it. -/
theorem toOption_reply? (h : w.keys.Entries (KeyId.Generates asked)) {d : DispatchFrame}
    (asks : d.Asks asked) (valid : d.partition.Valid) (valid' : ∀ q, d.source = some q → q.Valid)
    {r : Except String Ciphertext} (reply : w.reply? d = some r) :
    ∃ keys, GeneratedKeys asked d.partition d.source d.seed keys ∧
      ∀ ct, r = .ok ct ↔ w.options.primitives.run d.op d.inputs keys d.nonce = .done ct := by
  obtain ⟨keys, found, generated⟩ := keysFor_valid h asks valid valid'
  refine ⟨keys, generated, fun ct => ?_⟩
  unfold reply? at reply
  simp only [found] at reply
  cases ran : w.options.primitives.run d.op d.inputs keys d.nonce with
  | crashed text => simp [ran] at reply
  | failed err =>
      simp only [ran, Option.some.injEq] at reply
      simp [← reply]
  | done words =>
      simp only [ran, Option.some.injEq] at reply
      simp [← reply]

/-- A worker that acknowledges every delivery returns what its primitives make of the request, under keys
that it generated for its partitions, and an error where they give one. -/
theorem Linked.execute_replies (h : w.Linked asked) (acknowledges : w.Acknowledges) (n : Node)
    {p : Partition} {source : Option Partition} (known : asked p)
    (other : ∀ q, source = some q → asked q) (valid : p.Valid)
    (valid' : ∀ q, source = some q → q.Valid) (seed : KeySeed) (inputs : List Ciphertext)
    (nonce : UInt64) :
    ∃ keys, GeneratedKeys asked p source seed keys ∧
      ∀ ct, (w.execute n p source seed inputs nonce).1 = .ok ct ↔
        w.options.primitives.run n.op inputs keys nonce = .done ct := by
  obtain ⟨-, s, t, rfl, after, reaches, generates, executed⟩ :=
    h.executed n known other seed inputs nonce
  have counted := acknowledges _ .refl n p source seed inputs nonce
  rw [← after] at counted
  have accepted := reaches.accepted
  have asks : (s.worker.requestOf n p source seed inputs nonce).Asks asked := ⟨known, other⟩
  rcases executed with ⟨r, -, -, found, result⟩ | ⟨same, -⟩
  · obtain ⟨v, options, keys, reply⟩ := generates.computed _ (List.mem_of_getElem? found)
    obtain ⟨keys, generated, replied⟩ := toOption_reply? keys asks valid valid' reply.symm
    refine ⟨keys, generated, fun ct => ?_⟩
    rw [← options]
    refine Iff.trans ?_ (replied ct)
    rw [result]
    cases r <;> simp [Except.mapError]
  · rw [same] at accepted
    omega

/-! ## workers in time -/

/-- No completion is on its way, and the worker is free. -/
structure Idle (o : RemoteOptions) (w : RemoteWorker) : Prop where
  options : w.options = o
  completions : w.completions = []
  closedAt : w.closedAt = none
  free : w.freeAt ≤ w.clock

/-- A request that is taken up is answered once the primitives are through and the answer has come over
the link, unless they crash. -/
theorem serve_answers (w : RemoteWorker) (start : Nat) (d : DispatchFrame)
    (steady : ∀ keys text, w.options.primitives.run d.op d.inputs keys d.nonce ≠ .crashed text) :
    ∃ time c, c.delivery = d.delivery ∧
      time ≤ start + (w.options.primitives.delay d.op + w.options.latency) ∧
      (w.serve start d).completions = w.completions ++ [(time, c)] ∧
      (w.serve start d).freeAt = time ∧ (w.serve start d).closedAt = w.closedAt := by
  unfold serve
  cases found : w.remembered.find? (·.delivery == d.delivery) with
  | some c => exact ⟨start, c, by simpa using List.find?_some found, by omega, rfl, rfl, rfl⟩
  | none =>
      simp only [compute]
      cases keysFor w.keys d with
      | mk keys cache =>
          cases keys with
          | error reason => exact ⟨_, _, rfl, by dsimp only; omega, rfl, rfl, rfl⟩
          | ok keys =>
              dsimp only
              cases ran : w.options.primitives.run d.op d.inputs keys d.nonce with
              | crashed text => exact absurd ran (steady keys text)
              | failed err => exact ⟨_, _, rfl, (Nat.add_assoc _ _ _).le, rfl, rfl, rfl⟩
              | done words => exact ⟨_, _, rfl, (Nat.add_assoc _ _ _).le, rfl, rfl, rfl⟩

section Prompt

variable {o : RemoteOptions}

/-- An idle worker is sent a request at once. -/
theorem Idle.send (h : w.Idle o) (nothing : w.requests = []) (d : DispatchFrame) :
    w.send d = (.ok (), { w with requests := [(w.clock, d)] }) := by
  have room : 0 < max w.options.channelCapacity 1 := by omega
  simp [RemoteWorker.send, catchUp, serveUntil, closedBy, nothing, h.closedAt, room]

/-- The answer to the only request arrives in time, and leaves the worker idle. -/
theorem Idle.receive (h : w.Idle o) (d : DispatchFrame)
    (steady : ∀ keys text, o.primitives.run d.op d.inputs keys d.nonce ≠ .crashed text)
    (quick : o.primitives.delay d.op + o.latency ≤ o.ackTimeout) :
    ∃ c w', c.delivery = d.delivery ∧
      RemoteWorker.receive (w.clock + o.ackTimeout) [(w.clock, d)] w = (some c, w') ∧ w'.Idle o ∧
      w'.requests = [] ∧ w'.counters.accepted = w.counters.accepted := by
  obtain ⟨time, c, own, soon, completions, freeAt, closedAt⟩ :=
    w.serve_answers w.clock d (h.options ▸ steady)
  obtain ⟨options, -⟩ := (served w w.clock d).kept
  rw [h.options] at soon options
  rw [h.completions, List.nil_append] at completions
  have now : max w.freeAt w.clock = w.clock := max_eq_right h.free
  have intime : time ≤ w.clock + o.ackTimeout := by omega
  refine ⟨c, { w.serve w.clock d with
    requests := [], completions := [], clock := max (w.serve w.clock d).clock time }, own, ?_, ?_, rfl,
    accepted_serve w w.clock d⟩
  · simp [RemoteWorker.receive, h.completions, h.closedAt, now, completions, intime]
  · exact
      { options
        completions := rfl
        closedAt := closedAt.trans h.closedAt
        free := freeAt.trans_le (le_max_right _ _) }

/-- It is accepted. -/
theorem Idle.deliver (h : w.Idle o) {d : DispatchFrame} (sent : w.requests = [(w.clock, d)])
    (steady : ∀ keys text, o.primitives.run d.op d.inputs keys d.nonce ≠ .crashed text)
    (quick : o.primitives.delay d.op + o.latency ≤ o.ackTimeout) (left : Nat) :
    ((deliver d left w).2.Idle o ∧ (deliver d left w).2.requests = []) ∧
      (deliver d left w).2.counters.accepted = w.counters.accepted + 1 := by
  obtain ⟨c, w', own, received, idle, empty, accepted⟩ := h.receive d steady quick
  have ended : await d.delivery (w.outstanding + 1) w =
      (.accepted c.result, w'.count fun n => { n with accepted := n.accepted + 1 }) := by
    rw [await, h.options, sent, received]
    exact if_pos own
  rw [RemoteWorker.deliver, ended]
  exact ⟨⟨{ idle with }, empty⟩, congrArg (· + 1) accepted⟩

/-- A call leaves the worker idle, and its completion is accepted. -/
theorem Idle.execute (h : w.Idle o) (nothing : w.requests = [])
    (steady : ∀ op inputs keys nonce text, o.primitives.run op inputs keys nonce ≠ .crashed text)
    (quick : ∀ op, o.primitives.delay op + o.latency ≤ o.ackTimeout) (n : Node) (p : Partition)
    (source : Option Partition) (seed : KeySeed) (inputs : List Ciphertext) (nonce : UInt64) :
    ((w.execute n p source seed inputs nonce).2.Idle o ∧
      (w.execute n p source seed inputs nonce).2.requests = []) ∧
      (w.execute n p source seed inputs nonce).2.counters.accepted = w.counters.accepted + 1 := by
  have opened : Idle o { w with nextDelivery := w.nextDelivery + 1 } := { h with }
  rw [execute_eq, opened.send nothing]
  refine Idle.deliver ?_ rfl (steady _ _ · _) (quick _) _
  exact { h with }

end Prompt

end RemoteWorker

end HomCircuit
