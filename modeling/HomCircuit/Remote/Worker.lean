import HomCircuit.Backend.Outcome
import HomCircuit.Key.Cache
import HomCircuit.Remote.Frame
import HomCircuit.Remote.TicketQueue
import HomCircuit.Text.Quoted

/-!
# HomCircuit.Remote.Worker

A worker behind a link, with a clock in milliseconds.

```
context  --requests-->  worker          requests and completions arrive in the order sent
         <--completions--
```

A request that is not answered in time is sent again under the same delivery number. The worker
computes a delivery it does not remember and answers a remembered one from memory; the context
accepts one completion a delivery and drops those of other deliveries.

* `RemoteWorker.start?` — a fresh worker;
* `RemoteWorker.send`, `serve`, `receive` — the moves of either side;
* `RemoteWorker.execute` — one delivery from the first request to its end;
* `RemoteWorker.stop` — ends the worker.
-/

namespace HomCircuit

/-- How a remote worker is set up; times are in milliseconds. -/
structure RemoteOptions where
  primitives : Primitives := .reference
  cacheCapacity : Nat := 8
  channelCapacity : Nat := 64
  /-- How long a request waits for its completion. -/
  ackTimeout : Nat := 5000
  maxRetransmits : Nat := 3
  /-- How long a fresh completion is on its way. -/
  latency : Nat := 0
  deriving Inhabited

/-- The least capacity of a queue, at 32 bytes a request, that no address reaches: half of all
addresses are for one allocation. -/
def queueLimit : Nat := Nat.pow 2 58

/-- What a link counts. -/
structure RemoteCounters where
  dispatched : Nat := 0
  retransmits : Nat := 0
  executed : Nat := 0
  /-- Requests that were answered from memory. -/
  duplicatesDropped : Nat := 0
  accepted : Nat := 0
  /-- Completions of deliveries that nobody waits for. -/
  staleCompletions : Nat := 0
  deriving DecidableEq, Inhabited

/-- A remote worker and both directions of its link. -/
structure RemoteWorker where
  index : Nat
  name : String
  options : RemoteOptions
  clock : Nat := 0
  nextDelivery : UInt64 := 1
  counters : RemoteCounters := {}
  /-- Requests on their way with the time of sending, oldest first. -/
  requests : List (Nat × DispatchFrame) := []
  /-- Completions on their way with the time of arrival, oldest first. -/
  completions : List (Nat × CompletionFrame) := []
  keys : KeyCache
  /-- Who may use the link: one delivery at a time. -/
  queue : TicketQueue := {}
  /-- Completions that the worker remembers, newest first. -/
  remembered : List CompletionFrame := []
  /-- When the worker takes up its next request. -/
  freeAt : Nat := 0
  /-- When the worker ended, if it did. -/
  closedAt : Option Nat := none
  /-- Calls of primitives that were not yet announced, newest first. -/
  calls : List PrimitiveCall := []
  deriving Inhabited

namespace RemoteWorker

/-- A fresh worker. -/
def spawn (index : Nat) (name : String) (options : RemoteOptions) : RemoteWorker :=
  { index, name, options, keys := .empty options.cacheCapacity }

/-- Whether a worker can start: its name may hold no zero character, and its queue of requests has
to be addressable. -/
def canStart (name : String) (options : RemoteOptions) : Bool :=
  !name.toList.contains '\x00' && options.channelCapacity < queueLimit

/-- A fresh worker, if it can start. -/
def start? (index : Nat) (name : String) (options : RemoteOptions) : Option RemoteWorker :=
  if canStart name options then some (spawn index name options) else none

/-- How many completions a worker remembers. -/
def memory : Nat := 1024

/-- Counts something. -/
def count (w : RemoteWorker) (f : RemoteCounters → RemoteCounters) : RemoteWorker :=
  { w with counters := f w.counters }

/-- An error of this worker. -/
def failure (w : RemoteWorker) (reason : String) : RunError := .remote w.index reason

/-- Whether the worker has ended by a time. -/
def closedBy (w : RemoteWorker) (time : Nat) : Bool := w.closedAt.any (· ≤ time)

/-! ## the worker's side -/

/-- The keys of a request, generated if need be. -/
def keysFor (c : KeyCache) (d : DispatchFrame) : Except String OperationKeys × KeyCache :=
  match c.getOrCreate d.partition d.seed with
  | (.error e, c) => (.error e.message, c)
  | (.ok output, c) =>
    match d.source with
    | none => (.ok { output := output.keys }, c)
    | some source =>
      let (input, c) := c.getOrCreate source d.seed
      ((input.map fun s => { output := output.keys, input := some s.keys }).mapError
        KeyError.message, c)

/-- Puts an answer on its way. -/
def answer (w : RemoteWorker) (time : Nat) (c : CompletionFrame) : RemoteWorker :=
  { w with completions := w.completions ++ [(time, c)], freeAt := time }

/-- A fresh answer is remembered, forgetting the oldest beyond the bound, and takes the latency of
the link. -/
def answerFresh (w : RemoteWorker) (time : Nat) (c : CompletionFrame) : RemoteWorker :=
  { w.count fun n => { n with executed := n.executed + 1 } with
    remembered := (c :: w.remembered).take memory }.answer (time + w.options.latency) c

/-- Computes a request from a time on. -/
def compute (w : RemoteWorker) (start : Nat) (d : DispatchFrame) : RemoteWorker :=
  let (keys, cache) := keysFor w.keys d
  let w := { w with keys := cache }
  match keys with
  | .error reason => w.answerFresh start ⟨d.delivery, d.node, .error reason⟩
  | .ok keys =>
    let w := { w with calls := ⟨d.op, d.nonce⟩ :: w.calls }
    let ends := start + w.options.primitives.delay d.op
    match w.options.primitives.run d.op d.inputs keys d.nonce with
    | .crashed _ => { w with closedAt := some ends }
    | .failed e =>
      w.answerFresh ends ⟨d.delivery, d.node, .error s!"{e.message} ({d.op.name})"⟩
    | .done words => w.answerFresh ends ⟨d.delivery, d.node, .ok words⟩

/-- Takes up a request at a time: a remembered delivery is answered at once. -/
def serve (w : RemoteWorker) (start : Nat) (d : DispatchFrame) : RemoteWorker :=
  match w.remembered.find? (·.delivery == d.delivery) with
  | some c =>
    (w.count fun n => { n with duplicatesDropped := n.duplicatesDropped + 1 }).answer start c
  | none => w.compute start d

/-- When the oldest request is taken up, if it ever is. -/
def nextStart? (w : RemoteWorker) : Option Nat :=
  if w.closedAt.isSome then none else w.requests.head?.map fun (sent, _) => max w.freeAt sent

/-- Takes up the given requests as far as they start by a time. -/
def serveUntil (time : Nat) : List (Nat × DispatchFrame) → RemoteWorker → RemoteWorker
  | [], w => { w with requests := [] }
  | (sent, d) :: rest, w =>
    if w.closedAt.isSome ∨ time < max w.freeAt sent then { w with requests := (sent, d) :: rest }
    else serveUntil time rest (w.serve (max w.freeAt sent) d)

/-- The worker's side catches up with a time. -/
def catchUp (w : RemoteWorker) (time : Nat) : RemoteWorker := serveUntil time w.requests w

/-! ## the context's side -/

/-- Sends a request. A full link blocks until the worker takes up a request. -/
def send (w : RemoteWorker) (d : DispatchFrame) : Except RunError Unit × RemoteWorker :=
  let w := w.catchUp w.clock
  let w :=
    if w.requests.length < max w.options.channelCapacity 1 then w
    else
      let later := max w.clock ((w.nextStart? <|> w.closedAt).getD w.clock)
      { w with clock := later }.catchUp later
  if w.closedBy w.clock then (.error (w.failure "request channel closed"), w)
  else (.ok (), { w with requests := w.requests ++ [(w.clock, d)] })

/-- Takes the oldest completion that arrives by a deadline. The worker takes up requests until
there is one. -/
def receive (deadline : Nat) : List (Nat × DispatchFrame) → RemoteWorker →
    Option CompletionFrame × RemoteWorker
  | requests, w =>
    match w.completions with
    | (time, c) :: rest =>
      if time ≤ deadline then
        (some c, { w with completions := rest, requests, clock := max w.clock time })
      else (none, { w with requests, clock := max w.clock deadline })
    | [] =>
      match requests with
      | [] => (none, { w with requests := [], clock := max w.clock deadline })
      | (sent, d) :: others =>
        if w.closedAt.isSome ∨ deadline < max w.freeAt sent then
          (none, { w with requests := (sent, d) :: others, clock := max w.clock deadline })
        else receive deadline others (w.serve (max w.freeAt sent) d)

/-- How waiting for a delivery ends. -/
inductive Wait
  | accepted (result : Except String Ciphertext)
  | closed
  | expired

/-- Waits for the completion of a delivery, dropping at most `fuel` others on the way; each of them
starts the waiting time anew. -/
def await (delivery : UInt64) : Nat → RemoteWorker → Wait × RemoteWorker
  | 0, w => (.expired, w)
  | fuel + 1, w =>
    let deadline := w.clock + w.options.ackTimeout
    match receive deadline w.requests w with
    | (some c, w) =>
      if c.delivery = delivery then
        (.accepted c.result, w.count fun n => { n with accepted := n.accepted + 1 })
      else await delivery fuel (w.count fun n => { n with staleCompletions := n.staleCompletions + 1 })
    | (none, w) => (if w.closedBy deadline then .closed else .expired, w)

/-- How many completions can still arrive. -/
def outstanding (w : RemoteWorker) : Nat := w.requests.length + w.completions.length

/-- Waits for a delivery and sends its request again up to `left` times. -/
def deliver (d : DispatchFrame) : Nat → RemoteWorker → Except RunError Ciphertext × RemoteWorker
  | left, w =>
    match await d.delivery (w.outstanding + 1) w with
    | (.accepted result, w) => (result.mapError w.failure, w)
    | (.closed, w) => (.error (w.failure "completion channel closed"), w)
    | (.expired, w) =>
      match left with
      | 0 =>
        (.error (w.failure
          s!"delivery {d.delivery} unacknowledged after {w.options.maxRetransmits} retransmits"), w)
      | left + 1 =>
        match (w.count fun n => { n with retransmits := n.retransmits + 1 }).send d with
        | (.error e, w) => (.error e, w)
        | (.ok (), w) => deliver d left w

/-- Runs one operation on the worker: the request takes the next delivery number, whether or not
the link is still open. -/
def execute (w : RemoteWorker) (n : Node) (partition : Partition) (source : Option Partition)
    (seed : KeySeed) (inputs : List Ciphertext) (nonce : UInt64) :
    Except RunError Ciphertext × RemoteWorker :=
  let d : DispatchFrame :=
    { delivery := w.nextDelivery, node := n.id, op := n.op, partition, source, seed, inputs, nonce }
  match { w with nextDelivery := w.nextDelivery + 1 }.send d with
  | (.error e, w) => (.error e, w)
  | (.ok (), w) =>
    deliver d w.options.maxRetransmits
      (w.count fun n => { n with dispatched := n.dispatched + 1 })

/-- Ends the worker; requests that it has not taken up are lost. -/
def stop (w : RemoteWorker) : RemoteWorker :=
  let w := w.catchUp w.clock
  { w with closedAt := some (w.closedAt.getD w.clock), requests := [] }

/-- Hands out the calls of primitives since the last time, oldest first. -/
def takeCalls (w : RemoteWorker) : List PrimitiveCall × RemoteWorker :=
  (w.calls.reverse, { w with calls := [] })

/-- A summary of the worker with all counters. -/
def describe (w : RemoteWorker) : String :=
  let n := w.counters
  s!"RemoteWorker \x7b index: {w.index}, name: {Text.quoted w.name}, " ++
  s!"stats: RemoteWorkerStats \x7b dispatched: {n.dispatched}, retransmits: {n.retransmits}, " ++
  s!"executed: {n.executed}, duplicates_dropped: {n.duplicatesDropped}, " ++
  s!"accepted: {n.accepted}, stale_completions: {n.staleCompletions} \x7d \x7d"

end RemoteWorker

end HomCircuit
