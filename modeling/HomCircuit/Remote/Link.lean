import HomCircuit.Remote.Worker

/-!
# HomCircuit.Remote.Link

All ways in which the context and a worker may take turns on their link.

```
idle  --open-->  opening  --dispatch-->  waiting  --accept, give up, hang up-->  idle
                                         waiting  --expire-->  resending  --resend-->  waiting
```

Between any two steps of the context the worker may take up requests, as many as it likes, and the
clock may move on. A request that waits too long is sent again; the completion that the worker is
about to send may be on its way by then. The link keeps a history of what was dispatched, computed
and accepted.

* `Link.Step` — one step of either side;
* `Link.Reaches` — what some interleaving leads to.
-/

namespace HomCircuit

namespace RemoteWorker

/-- How many requests may be on their way. -/
def room (w : RemoteWorker) : Nat := max w.options.channelCapacity 1

/-- What the worker answers to a request that it computes, unless it crashes. -/
def reply? (w : RemoteWorker) (d : DispatchFrame) : Option (Except String Ciphertext) :=
  match (keysFor w.keys d).1 with
  | .error reason => some (.error reason)
  | .ok keys =>
    match w.options.primitives.run d.op d.inputs keys d.nonce with
    | .crashed _ => none
    | .failed e => some (.error s!"{e.message} ({d.op.name})")
    | .done words => some (.ok words)

/-- Whether the worker remembers a delivery. -/
def remembers (w : RemoteWorker) (d : DispatchFrame) : Bool :=
  w.remembered.any (·.delivery == d.delivery)

end RemoteWorker

/-- What the context is doing on a link. -/
inductive Link.Caller
  | idle
  /-- About to send a request for the first time. -/
  | opening (d : DispatchFrame)
  /-- Waiting for the completion of a request that may be sent so many times more. -/
  | waiting (d : DispatchFrame) (left : Nat)
  /-- About to send a request again. -/
  | resending (d : DispatchFrame) (left : Nat)

/-- A link: the worker with both queues, what the context is doing, and what has happened. -/
structure Link where
  worker : RemoteWorker
  caller : Link.Caller := .idle
  /-- The requests of all deliveries, each once, oldest first. -/
  dispatched : List DispatchFrame := []
  /-- The requests that the worker computed, oldest first, each with the answer if there was one. -/
  computed : List (DispatchFrame × Option (Except String Ciphertext)) := []
  /-- The completions that were accepted, each with the place of its delivery among the dispatched
  ones. -/
  accepted : List (Nat × CompletionFrame) := []

namespace Link

/-- A fresh worker and a context that is idle. -/
def start (w : RemoteWorker) : Link := { worker := w }

/-- What the worker will have computed once it has taken up a request. -/
def computedAfter (s : Link) (d : DispatchFrame) :
    List (DispatchFrame × Option (Except String Ciphertext)) :=
  if s.worker.remembers d then s.computed else s.computed ++ [(d, s.worker.reply? d)]

/-- One step of the context, of the worker, or of the clock. -/
inductive Step : Link → Link → Prop
  | tick {s : Link} (time : Nat) :
      Step s { s with worker := { s.worker with clock := max s.worker.clock time } }
  /-- A call begins: its request takes the next delivery number. -/
  | open {s : Link} {d : DispatchFrame} (free : s.caller = .idle)
      (numbered : d.delivery = s.worker.nextDelivery) :
      Step s { s with
        caller := .opening d
        worker := { s.worker with nextDelivery := s.worker.nextDelivery + 1 } }
  /-- A request is sent for the first time. -/
  | dispatch {s : Link} {d : DispatchFrame} (ready : s.caller = .opening d)
      (alive : s.worker.closedBy s.worker.clock = false)
      (space : s.worker.requests.length < s.worker.room) :
      Step s { s with
        caller := .waiting d s.worker.options.maxRetransmits
        worker :=
          { s.worker with requests := s.worker.requests ++ [(s.worker.clock, d)] }.count
            fun n => { n with dispatched := n.dispatched + 1 }
        dispatched := s.dispatched ++ [d] }
  /-- A request is sent again. -/
  | resend {s : Link} {d : DispatchFrame} {left : Nat} (ready : s.caller = .resending d left)
      (alive : s.worker.closedBy s.worker.clock = false)
      (space : s.worker.requests.length < s.worker.room) :
      Step s { s with
        caller := .waiting d left
        worker := { s.worker with requests := s.worker.requests ++ [(s.worker.clock, d)] } }
  /-- A request cannot be sent since the worker has ended. -/
  | refuse {s : Link} {d : DispatchFrame}
      (ready : s.caller = .opening d ∨ ∃ left, s.caller = .resending d left)
      (ended : s.worker.closedBy s.worker.clock = true) : Step s { s with caller := .idle }
  /-- The worker takes up the oldest request. -/
  | serve {s : Link} {sent : Nat} {d : DispatchFrame} {rest : List (Nat × DispatchFrame)}
      {start : Nat} (first : s.worker.requests = (sent, d) :: rest)
      (alive : s.worker.closedAt = none) (free : max s.worker.freeAt sent ≤ start)
      (now : start ≤ s.worker.clock) :
      Step s { s with
        worker := { s.worker with requests := rest }.serve start d
        computed := s.computedAfter d }
  /-- A completion of another delivery is dropped. -/
  | drop {s : Link} {d : DispatchFrame} {left time : Nat} {c : CompletionFrame}
      {rest : List (Nat × CompletionFrame)} (waits : s.caller = .waiting d left)
      (first : s.worker.completions = (time, c) :: rest) (other : c.delivery ≠ d.delivery) :
      Step s { s with
        worker := { s.worker with completions := rest }.count
          fun n => { n with staleCompletions := n.staleCompletions + 1 } }
  /-- The completion of the delivery is accepted, which ends the call. -/
  | accept {s : Link} {d : DispatchFrame} {left time : Nat} {c : CompletionFrame}
      {rest : List (Nat × CompletionFrame)} (waits : s.caller = .waiting d left)
      (first : s.worker.completions = (time, c) :: rest) (own : c.delivery = d.delivery) :
      Step s { s with
        caller := .idle
        worker := { s.worker with completions := rest }.count
          fun n => { n with accepted := n.accepted + 1 }
        accepted := s.accepted ++ [(s.dispatched.length - 1, c)] }
  /-- No completion came in time, and the request may be sent again. -/
  | expire {s : Link} {d : DispatchFrame} {left : Nat} (waits : s.caller = .waiting d (left + 1))
      (quiet : s.worker.completions.length ≤ 1) :
      Step s { s with
        caller := .resending d left
        worker := s.worker.count fun n => { n with retransmits := n.retransmits + 1 } }
  /-- No completion came in time, and the request was sent often enough. -/
  | giveUp {s : Link} {d : DispatchFrame} (waits : s.caller = .waiting d 0)
      (quiet : s.worker.completions.length ≤ 1) : Step s { s with caller := .idle }
  /-- No completion will come since the worker has ended. -/
  | hangUp {s : Link} {d : DispatchFrame} {left : Nat} (waits : s.caller = .waiting d left)
      (ended : s.worker.closedBy s.worker.clock = true)
      (quiet : s.worker.completions.length ≤ 1) : Step s { s with caller := .idle }
  /-- The worker is ended; requests that it has not taken up are lost. -/
  | close {s : Link}
      (settled : s.worker.closedAt = none ∨ s.worker.closedBy s.worker.clock = true) :
      Step s { s with
        worker :=
          { s.worker with
            closedAt := some (s.worker.closedAt.getD s.worker.clock)
            requests := [] } }

/-- Some interleaving of steps leads from one state to another. -/
inductive Reaches : Link → Link → Prop
  | refl {s : Link} : Reaches s s
  | step {s t u : Link} (before : Reaches s t) (last : Step t u) : Reaches s u

end Link

end HomCircuit
