import HomCircuit.Remote.Worker
import HomCircuit.Report.Graph

/-!
# HomCircuit.Report.Remote

Frames, counters and options of remote workers as JSON reports.

* `Frame.report`, `Frame.ofReport?` — an object without members is a shutdown;
* `RemoteCounters.report` — six numbers, `RemoteCounters.summary` — those that do not depend on how
  often a request was sent again;
* `RemoteOptions.ofReport?`.
-/

namespace HomCircuit

open Json (ofNat ofWord)

/-- A request by its members. -/
def DispatchFrame.report (d : DispatchFrame) : Json :=
  .record [("delivery_id", ofNat d.delivery.toNat), ("node", .nat d.node.index.toNat),
    ("kind", d.op.report), ("partition", d.partition.report),
    ("input_partition", .maybe Partition.report d.source), ("seed", d.seed.report),
    ("inputs", .list Ciphertext.report d.inputs), ("nonce", ofNat d.nonce.toNat)]

/-- The request that members describe. -/
def DispatchFrame.ofReport? (j : Json) : Option DispatchFrame := do
  some
    { delivery := ← j.field "delivery_id" Json.word64?
      node := ⟨← j.field "node" Json.word32?⟩
      op := ← j.field "kind" Operation.ofReport?
      partition := ← j.field "partition" Partition.ofReport?
      source := ← j.optional "input_partition" Partition.ofReport?
      seed := ← j.withDefault "seed" KeySeed.ofReport? {}
      inputs := ← j.field "inputs" (·.listOf? (·.listOf? Json.word?))
      nonce := ← j.withDefault "nonce" Json.word64? 0 }

/-- An answer by its members. -/
def CompletionFrame.report (c : CompletionFrame) : Json :=
  let result := match c.result with
    | .ok ct => ("ok", Ciphertext.report ct)
    | .error reason => ("err", .text reason)
  .record [("delivery_id", ofNat c.delivery.toNat), ("node", .nat c.node.index.toNat),
    ("result", .record [result])]

/-- The answer that members describe. -/
def CompletionFrame.ofReport? (j : Json) : Option CompletionFrame := do
  let result ← match ← j.optional "err" Json.text? with
    | some reason => some (.error reason)
    | none => (j.field "ok" (·.listOf? Json.word?)).map .ok
  some
    { delivery := ← j.field "delivery_id" Json.word64?
      node := ⟨← j.field "node" Json.word32?⟩
      result }

/-- A frame as an object with one member, or as the name of a shutdown. -/
def Frame.report : Frame → Json
  | .dispatch d => .record [("dispatch", d.report)]
  | .completion c => .record [("completion", c.report)]
  | .shutdown => .text "shutdown"

/-- The frame that a report describes. -/
def Frame.ofReport? : Json → Option Frame
  | .object [] => some .shutdown
  | .object [(some "dispatch", d)] => (DispatchFrame.ofReport? d).map .dispatch
  | .object [(some "completion", c)] => (CompletionFrame.ofReport? c).map .completion
  | _ => none

/-- All counters of a link. -/
def RemoteCounters.report (n : RemoteCounters) : Json :=
  .nats [n.dispatched, n.executed, n.accepted, n.retransmits, n.duplicatesDropped,
    n.staleCompletions]

/-- Deliveries sent and accepted, and whether any was sent again. -/
def RemoteCounters.summary (n : RemoteCounters) : Json :=
  .record [("dispatched", .nat n.dispatched), ("accepted", .nat n.accepted),
    ("retransmitted", .bool (0 < n.retransmits))]

/-- Options from their members, each with its default. -/
def RemoteOptions.ofReport? (j : Json) : Option RemoteOptions := do
  let base : RemoteOptions := {}
  some
    { base with
      cacheCapacity := ← j.withDefault "key_cache_capacity" Json.nat? base.cacheCapacity
      channelCapacity := ← j.withDefault "channel_capacity" Json.nat? base.channelCapacity
      ackTimeout := ← j.withDefault "ack_timeout_ms" Json.nat? base.ackTimeout
      maxRetransmits := ← j.withDefault "max_retransmits" Json.nat? base.maxRetransmits
      latency := ← j.withDefault "link_latency_ms" Json.nat? base.latency }

end HomCircuit
