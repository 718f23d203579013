import HomCircuit.Proofs.Key.Answers
import HomCircuit.Proofs.Remote.Clock

/-!
# HomCircuit.Proofs.Remote.Origin

What a remote worker makes its answers of, in one call after another.

```
request  =  operation, partitions, inputs, nonce     from the context
keys     =  those of the worker's own manager        generated for the partitions of some request
```

No key set ever travels over the link, so that the worker has none but those that it generated. It
finds them by identity, so that partitions of one identity share the key set of the one that was asked
for first.

* `Link.Generates` — all that was computed was computed under generated keys, kept by every step;
* `RemoteWorker.Linked` — a worker between two calls, kept by `Linked.withQueue`, `Linked.takeCalls`;
* `RemoteWorker.Linked.execute` — a ciphertext that a call returns is that of the primitives on its
  own request, under generated keys.
-/

namespace HomCircuit

/-- A request asks for keys of its partitions alone. -/
def DispatchFrame.Asks (asked : Partition → Prop) (d : DispatchFrame) : Prop :=
  asked d.partition ∧ ∀ q, d.source = some q → asked q

/-- Keys of an operation that were generated: for its own partition, and for the one that it starts
from, if there is one. -/
def GeneratedKeys (asked : Partition → Prop) (p : Partition) (source : Option Partition)
    (seed : KeySeed) (keys : OperationKeys) : Prop :=
  (KeyId.of p seed).Generates asked keys.output ∧
    Option.Rel (fun q k => (KeyId.of q seed).Generates asked k) source keys.input

section Asked

variable {asked : Partition → Prop}

/-- A worker that has generated all its keys computes with generated keys. -/
theorem RemoteWorker.generates_keysFor {c : KeyCache} (h : c.Entries (KeyId.Generates asked))
    {d : DispatchFrame} (asks : d.Asks asked) :
    (∀ keys, (keysFor c d).1 = .ok keys → GeneratedKeys asked d.partition d.source d.seed keys) ∧
      (keysFor c d).2.Entries (KeyId.Generates asked) := by
  obtain ⟨output, kept⟩ := h.generates asks.1 d.seed
  unfold keysFor
  generalize c.getOrCreate d.partition d.seed = first at output kept
  obtain ⟨r, c'⟩ := first
  cases r with
  | error err => exact ⟨nofun, kept⟩
  | ok shared =>
      have output := output shared rfl
      cases from_ : d.source with
      | none =>
          refine ⟨fun keys found => ?_, kept⟩
          rw [← Except.ok.inj found]
          exact ⟨output, .none⟩
      | some source =>
          obtain ⟨input, kept'⟩ := kept.generates (asks.2 source from_) d.seed
          dsimp only
          generalize c'.getOrCreate source d.seed = second at input kept'
          obtain ⟨r, c''⟩ := second
          refine ⟨fun keys found => ?_, kept'⟩
          cases r with
          | error err => simp [Except.map, Except.mapError] at found
          | ok other =>
              rw [← Except.ok.inj found]
              exact ⟨output, .some (input other rfl)⟩

/-- What a worker answers to a request with a ciphertext, its primitives made of the request. -/
theorem RemoteWorker.made_of_reply? {w : RemoteWorker}
    (h : w.keys.Entries (KeyId.Generates asked)) {d : DispatchFrame} (asks : d.Asks asked)
    {ct : Ciphertext} (reply : w.reply? d = some (.ok ct)) :
    ∃ keys, GeneratedKeys asked d.partition d.source d.seed keys ∧
      w.options.primitives.run d.op d.inputs keys d.nonce = .done ct := by
  unfold reply? at reply
  cases found : (keysFor w.keys d).1 with
  | error reason => simp [found] at reply
  | ok keys =>
      simp only [found] at reply
      refine ⟨keys, (generates_keysFor h asks).1 keys found, ?_⟩
      cases ran : w.options.primitives.run d.op d.inputs keys d.nonce with
      | crashed text => simp [ran] at reply
      | failed err => simp [ran] at reply
      | done words =>
          simp only [ran, Option.some.injEq, Except.ok.injEq] at reply
          rw [reply]

/-! ## links -/

/-- The settings stay, and every answer is what a worker of these settings computes from the very
request, under keys that it has generated for partitions that it was asked for. -/
structure Link.Generates (asked : Partition → Prop) (s : Link) (o : RemoteOptions) : Prop where
  options : s.worker.options = o
  keys : s.worker.keys.Entries (KeyId.Generates asked)
  computed : ∀ x ∈ s.computed, ∃ w : RemoteWorker, w.options = o ∧
    w.keys.Entries (KeyId.Generates asked) ∧ x.2 = w.reply? x.1

namespace Link

variable {s t : Link} {o : RemoteOptions}

/-- Only what was dispatched is computed. -/
theorem Valid.dispatched_of_computed (v : s.Valid) :
    ∀ x ∈ s.computed, x.1 ∈ s.dispatched := by
  intro x mem
  obtain ⟨arrived, lost, waiting, flow⟩ := v
  obtain ⟨i, found⟩ := List.mem_iff_getElem?.mp mem
  exact List.mem_of_getElem? (flow.dispatched_of_computed found)

theorem Generates.step (g : s.Generates asked o) (v : t.Valid)
    (asks : ∀ d ∈ t.dispatched, d.Asks asked) (h : s.Step t) : t.Generates asked o := by
  obtain ⟨options, keys, computed⟩ := h.computes
  refine ⟨options.trans g.options, ?_, fun x mem => ?_⟩
  · rcases keys with same | ⟨x, mem, fetched⟩
    · exact same ▸ g.keys
    · have own := asks x.1 (v.dispatched_of_computed x mem)
      exact fetched ▸ (RemoteWorker.generates_keysFor g.keys own).2
  · rcases computed x mem with old | new
    · exact g.computed x old
    · exact ⟨s.worker, g.options, g.keys, new⟩

theorem Reaches.generates (h : s.Reaches t) (v : s.Valid)
    (asks : ∀ d ∈ t.dispatched, d.Asks asked) (g : s.Generates asked o) : t.Generates asked o := by
  induction h with
  | refl => exact g
  | step before last ih =>
      have earlier := ih fun d mem => asks d (last.dispatched_subset mem)
      exact earlier.step (v.reaches (before.step last)) asks last

/-- The laws of a link say nothing of who is going to use it, nor of calls that were told. -/
theorem Flow.between {arrived lost waiting : List Nat} (f : s.Flow arrived lost waiting)
    (queue : TicketQueue) {calls : List PrimitiveCall} (fewer : calls.Sublist s.worker.calls) :
    Flow { s with worker := { s.worker with queue, calls } } arrived lost waiting :=
  { f with calls := fewer.reverse.trans f.calls }

end Link

/-! ## workers between two calls -/

namespace RemoteWorker

/-- A worker between two calls: its link has kept the laws of deliveries, nobody waits for a
completion, and all keys were generated for partitions that it was asked for. -/
def Linked (asked : Partition → Prop) (w : RemoteWorker) : Prop :=
  ∃ s : Link, s.Valid ∧ s.caller = .idle ∧ s.worker = w ∧ (∀ d ∈ s.dispatched, d.Asks asked) ∧
    s.Generates asked w.options

namespace Linked

variable {w : RemoteWorker}

/-- A fresh worker, which was not asked for anything. -/
theorem of_start {index : Nat} {name : String} {options : RemoteOptions}
    (fresh : start? index name options = some w) : w.Linked asked := by
  refine ⟨Link.start w, ⟨_, _, _, Link.Flow.start fresh⟩, rfl, rfl,
    fun d mem => absurd mem List.not_mem_nil, rfl, ?_, fun x mem => absurd mem List.not_mem_nil⟩
  unfold start? at fresh
  split at fresh
  · rw [← Option.some.inj fresh]
    exact KeyCache.entries_empty _
  · contradiction

/-- Others may queue up for the link or leave it, and calls may be told. -/
theorem between (h : w.Linked asked) (queue : TicketQueue) {calls : List PrimitiveCall}
    (fewer : calls.Sublist w.calls) : Linked asked { w with queue, calls } := by
  obtain ⟨s, ⟨arrived, lost, waiting, flow⟩, free, rfl, asks, generates⟩ := h
  exact ⟨_, ⟨_, _, _, flow.between queue fewer⟩, free, rfl, asks, generates.options, generates.keys,
    generates.computed⟩

theorem withQueue (h : w.Linked asked) (queue : TicketQueue) : Linked asked { w with queue } :=
  h.between queue (.refl _)

theorem takeCalls (h : w.Linked asked) : Linked asked w.takeCalls.2 :=
  h.between w.queue (List.nil_sublist _)

/-- A call leaves the worker linked, and takes its link from one state to another. -/
theorem executed (h : w.Linked asked) (n : Node) {p : Partition} {source : Option Partition}
    (known : asked p) (other : ∀ q, source = some q → asked q) (seed : KeySeed)
    (inputs : List Ciphertext) (nonce : UInt64) :
    (w.execute n p source seed inputs nonce).2.Linked asked ∧
      ∃ s t : Link, s.worker = w ∧ t.worker = (w.execute n p source seed inputs nonce).2 ∧
        s.Reaches t ∧ t.Generates asked w.options ∧
        s.Executed t (w.requestOf n p source seed inputs nonce)
          (w.execute n p source seed inputs nonce).1 := by
  obtain ⟨s, valid, free, rfl, asks, generates⟩ := h
  obtain ⟨t, reaches, idle, after, dispatched, executed⟩ :=
    Link.executes_request valid free n p source seed inputs nonce
  have own : (s.worker.requestOf n p source seed inputs nonce).Asks asked := ⟨known, other⟩
  have asks' : ∀ d ∈ t.dispatched, d.Asks asked := by
    intro d mem
    rcases List.mem_append.mp (dispatched mem) with old | new
    · exact asks d old
    · exact List.mem_singleton.mp new ▸ own
  have generates' := reaches.generates valid asks' generates
  refine ⟨⟨t, valid.reaches reaches, idle, after, asks', ?_⟩, s, t, rfl, after, reaches, generates',
    executed⟩
  rw [← after, generates'.options]
  exact generates'

/-- A call leaves the worker linked, and a ciphertext that it returns is what the primitives of the
worker make of the words and the nonce of this call, under keys that the worker generated for its
partitions. -/
theorem execute (h : w.Linked asked) (n : Node) {p : Partition} {source : Option Partition}
    (known : asked p) (other : ∀ q, source = some q → asked q) (seed : KeySeed)
    (inputs : List Ciphertext) (nonce : UInt64) :
    (w.execute n p source seed inputs nonce).2.Linked asked ∧
      (w.execute n p source seed inputs nonce).2.options = w.options ∧
      ∀ ct, (w.execute n p source seed inputs nonce).1 = .ok ct →
        ∃ keys, GeneratedKeys asked p source seed keys ∧
          w.options.primitives.run n.op inputs keys nonce = .done ct := by
  obtain ⟨linked, s, t, -, after, -, generates, executed⟩ :=
    h.executed n known other seed inputs nonce
  refine ⟨linked, after ▸ generates.options, fun ct returned => ?_⟩
  rw [returned] at executed
  rcases executed with ⟨r, -, -, found, result⟩ | ⟨-, reason, result⟩
  · obtain ⟨v, same, keys, reply⟩ := generates.computed _ (List.mem_of_getElem? found)
    obtain rfl : r = .ok ct := by
      cases r with
      | error text => exact absurd result nofun
      | ok words => rw [Except.ok.inj result]
    obtain ⟨keys, generated, ran⟩ := made_of_reply? keys ⟨known, other⟩ reply.symm
    rw [same] at ran
    exact ⟨keys, generated, ran⟩
  · contradiction

end Linked

end RemoteWorker

end Asked

end HomCircuit
