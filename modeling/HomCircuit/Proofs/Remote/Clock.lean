import HomCircuit.Proofs.Remote.Delivery

/-!
# HomCircuit.Proofs.Remote.Clock

What a remote worker does by the clock is one of the ways in which both sides may take turns, so that
the laws of deliveries hold for it.

```
execute  =  open, dispatch, (serve | drop | expire, resend)*, then accept, give up, hang up or refuse
```

* `Link.sends`, `Link.receives`, `Link.awaits`, `Link.delivers` — each part of a call is some steps;
* `Link.executes` — so is the call;
* `RemoteWorker.delivers_at_most_once` — the laws of deliveries, for every interleaving and for calls
  by the clock.
-/

namespace HomCircuit

/-! ## what the worker does not touch -/

namespace RemoteWorker

/-- The worker looks neither at the queue of requests nor at the clock of the context. -/
theorem serve_with (w : RemoteWorker) (start clock : Nat) (d : DispatchFrame)
    (requests : List (Nat × DispatchFrame)) :
    { w with requests, clock }.serve start d = { w.serve start d with requests, clock } := by
  unfold serve
  cases w.remembered.find? (·.delivery == d.delivery) with
  | some c => rfl
  | none =>
      simp only [compute]
      cases keysFor w.keys d with
      | mk keys cache =>
          cases keys with
          | error reason => rfl
          | ok keys =>
              dsimp only
              cases w.options.primitives.run d.op d.inputs keys d.nonce <;> rfl

/-- A request that is taken up leaves the settings and the clock as they are. -/
theorem Served.kept {w w' : RemoteWorker} {start : Nat} {d : DispatchFrame}
    (h : Served w start d w') : w'.options = w.options ∧ w'.clock = w.clock := by
  cases h <;> exact ⟨rfl, rfl⟩

/-- A request that is taken up fetches its own keys, if it is not remembered. -/
theorem keys_serve (w : RemoteWorker) (start : Nat) (d : DispatchFrame) :
    (w.serve start d).keys = w.keys ∨
      w.remembers d = false ∧ (w.serve start d).keys = (keysFor w.keys d).2 := by
  unfold serve
  cases found : w.remembered.find? (·.delivery == d.delivery) with
  | some c => exact .inl rfl
  | none =>
      refine .inr ⟨?_, ?_⟩
      · simpa [remembers] using found
      · simp only [compute]
        cases keysFor w.keys d with
        | mk keys cache =>
            cases keys with
            | error reason => rfl
            | ok keys =>
                dsimp only
                cases w.options.primitives.run d.op d.inputs keys d.nonce <;> rfl

theorem serve_requests (w : RemoteWorker) (start : Nat) (d : DispatchFrame)
    (requests : List (Nat × DispatchFrame)) :
    { w with requests }.serve start d = { w.serve start d with requests } := by
  have clock := (served w start d).kept.2
  refine (w.serve_with start w.clock d requests).trans ?_
  rw [← clock]

theorem options_serveUntil (time : Nat) (l : List (Nat × DispatchFrame)) (w : RemoteWorker) :
    (serveUntil time l w).options = w.options := by
  induction l generalizing w with
  | nil => rfl
  | cons request rest ih =>
      obtain ⟨sent, d⟩ := request
      unfold serveUntil
      split
      · rfl
      · rw [ih, (served w _ d).kept.1]

theorem length_serveUntil_le (time : Nat) (l : List (Nat × DispatchFrame)) (w : RemoteWorker) :
    (serveUntil time l w).requests.length ≤ l.length := by
  induction l generalizing w with
  | nil => exact le_rfl
  | cons request rest ih =>
      obtain ⟨sent, d⟩ := request
      unfold serveUntil
      split
      · exact le_rfl
      · exact (ih _).trans (Nat.le_succ _)

/-- Nothing is received while nothing is on its way and no request is taken up by the deadline. -/
theorem receive_none {w : RemoteWorker} {deadline : Nat} {l : List (Nat × DispatchFrame)}
    (nothing : w.completions = [])
    (quiet : ∀ request ∈ l.head?, w.closedAt.isSome = true ∨ deadline < max w.freeAt request.1) :
    receive deadline l w = (none, { w with requests := l, clock := max w.clock deadline }) := by
  cases l with
  | nil =>
      unfold receive
      rw [nothing]
  | cons request rest =>
      have late := quiet request rfl
      unfold receive
      rw [nothing]
      dsimp only
      rw [if_pos late, ← nothing]

end RemoteWorker

namespace Link

variable {s t u : Link} {d : DispatchFrame} {left : Nat}

theorem Reaches.trans (h : s.Reaches t) (h' : t.Reaches u) : s.Reaches u := by
  induction h' with
  | refl => exact h
  | step _ last ih => exact .step ih last

theorem Step.reaches (h : s.Step t) : s.Reaches t := .step .refl h

/-- A state of a link that a fresh one may come to. -/
def Valid (s : Link) : Prop := ∃ arrived lost waiting, s.Flow arrived lost waiting

theorem Valid.reaches (v : s.Valid) (h : s.Reaches t) : t.Valid := h.flow v

/-! ## the worker by the clock -/

/-- The worker takes up requests as far as they start by a time. -/
theorem serves {time : Nat} (l : List (Nat × DispatchFrame)) (w : RemoteWorker)
    (here : s.worker = { w with requests := l }) (now : time ≤ s.worker.clock) :
    ∃ computed, s.Reaches { s with worker := RemoteWorker.serveUntil time l w, computed } := by
  induction l generalizing w s with
  | nil =>
      refine ⟨s.computed, ?_⟩
      rw [RemoteWorker.serveUntil, ← here]
      exact .refl
  | cons request rest ih =>
      obtain ⟨sent, d⟩ := request
      unfold RemoteWorker.serveUntil
      split
      · refine ⟨s.computed, ?_⟩
        rw [← here]
        exact .refl
      · next later =>
          obtain ⟨alive, free⟩ := not_or.mp later
          have first : s.worker.requests = (sent, d) :: rest := by rw [here]
          have step : s.Step { s with
              worker := { s.worker with requests := rest }.serve (max w.freeAt sent) d
              computed := s.computedAfter d } :=
            .serve first (by rw [here]; simpa using alive) (by rw [here]) (by omega)
          have same : { s.worker with requests := rest }.serve (max w.freeAt sent) d =
              { w.serve (max w.freeAt sent) d with requests := rest } := by
            rw [here]
            exact w.serve_requests _ _ _
          rw [same] at step
          obtain ⟨computed, reaches⟩ := ih (s := { s with
            worker := { w.serve (max w.freeAt sent) d with requests := rest }
            computed := s.computedAfter d }) (w.serve (max w.freeAt sent) d) rfl (by
              rw [here] at now
              exact now.trans (RemoteWorker.served w _ d).kept.2.ge)
          exact ⟨computed, step.reaches.trans reaches⟩

theorem catchesUp (s : Link) {time : Nat} (now : time ≤ s.worker.clock) :
    ∃ computed, s.Reaches { s with worker := s.worker.catchUp time, computed } :=
  serves s.worker.requests s.worker rfl now

/-- A full queue has room once the worker has taken up another request, unless it has ended. -/
theorem room_catchUp {w : RemoteWorker} (space : w.requests.length ≤ w.room)
    (full : ¬w.requests.length < w.room) {w' : RemoteWorker} {later : Nat}
    (time : later = max w.clock ((w.nextStart? <|> w.closedAt).getD w.clock))
    (caught : w' = { w with clock := later }.catchUp later)
    (alive : w'.closedBy w'.clock = false) : w'.requests.length < w'.room := by
  have some_ : 0 < w.requests.length := by
    unfold RemoteWorker.room at full
    omega
  obtain ⟨⟨sent, d⟩, rest, queued⟩ := List.exists_cons_of_length_pos some_
  have options : w'.options = w.options := by
    rw [caught]
    exact RemoteWorker.options_serveUntil _ _ _
  unfold RemoteWorker.catchUp at caught
  simp only [queued] at caught
  unfold RemoteWorker.serveUntil at caught
  cases closed : w.closedAt with
  | none =>
      have start : later = max w.clock (max w.freeAt sent) := by
        simp [time, RemoteWorker.nextStart?, closed, queued]
      rw [if_neg (by simp only [closed, start]; simp)] at caught
      have fewer : w'.requests.length ≤ rest.length := by
        rw [caught]
        exact RemoteWorker.length_serveUntil_le _ _ _
      rw [queued, List.length_cons] at space
      unfold RemoteWorker.room at space ⊢
      rw [options]
      omega
  | some t =>
      have ended : later = max w.clock t := by
        simp [time, RemoteWorker.nextStart?, closed]
      rw [if_pos (by simp [closed])] at caught
      rw [caught] at alive
      simp [RemoteWorker.closedBy, closed, ended] at alive

/-- A request is sent once the worker has caught up and there is room, unless the worker has ended by
then. -/
theorem sends (v : s.Valid) (d : DispatchFrame) :
    ∃ w computed, s.Reaches { s with worker := w, computed } ∧
      (w.closedBy w.clock = false → w.requests.length < w.room) ∧
      s.worker.send d =
        if w.closedBy w.clock then (.error (w.failure "request channel closed"), w)
        else (.ok (), { w with requests := w.requests ++ [(w.clock, d)] }) := by
  obtain ⟨computed, caught⟩ := s.catchesUp (le_refl s.worker.clock)
  have v' := v.reaches caught
  unfold RemoteWorker.send
  generalize s.worker.catchUp s.worker.clock = w at caught v' ⊢
  by_cases space : w.requests.length < w.room
  · refine ⟨w, computed, caught, fun _ => space, ?_⟩
    simp only [show w.requests.length < max w.options.channelCapacity 1 from space, if_true]
  · obtain ⟨arrived, lost, waiting, flow⟩ := v'
    have ticked : Step { s with worker := w, computed } { s with
        worker := { w with clock := max w.clock ((w.nextStart? <|> w.closedAt).getD w.clock) }
        computed } := .tick _
    generalize later : max w.clock ((w.nextStart? <|> w.closedAt).getD w.clock) = time at ticked
    obtain ⟨computed', caught'⟩ :=
      catchesUp { s with worker := { w with clock := time }, computed } (le_refl time)
    refine ⟨_, computed', caught.trans (ticked.reaches.trans caught'),
      room_catchUp flow.space space later.symm rfl, ?_⟩
    simp only [show ¬w.requests.length < max w.options.channelCapacity 1 from space, if_false, later]

/-! ## the context by the clock -/

/-- What comes of waiting for a completion: one is there, and then fewer are to come, or none arrives
by the deadline. -/
def Receives (s : Link) (deadline : Nat) : Option CompletionFrame × RemoteWorker → Prop
  | (some c, w) => ∃ time computed,
      s.Reaches { s with worker := { w with completions := (time, c) :: w.completions }, computed } ∧
        w.outstanding < s.worker.outstanding
  | (none, w) => ∃ computed, s.Reaches { s with worker := w, computed } ∧
      w.completions.length ≤ 1 ∧ w.clock = deadline

/-- The next completion is there, or it arrives too late. -/
theorem receives_first (v : s.Valid) {deadline time : Nat} {c : CompletionFrame}
    {rest : List (Nat × CompletionFrame)} (first : s.worker.completions = (time, c) :: rest)
    (ahead : s.worker.clock ≤ deadline) :
    s.Receives deadline (s.worker.receive deadline s.worker.requests) := by
  unfold RemoteWorker.receive
  rw [first]
  dsimp only
  split
  · refine ⟨time, s.computed, ?_, ?_⟩
    · rw [← first]
      exact (Step.tick time).reaches
    · simp [RemoteWorker.outstanding, first]
  · next late =>
      refine ⟨s.computed, ?_, ?_, max_eq_right ahead⟩
      · rw [← first]
        exact (Step.tick deadline).reaches
      · cases rest with
        | nil => exact le_rfl
        | cons a rest =>
            obtain ⟨arrived, lost, waiting, flow⟩ := v
            have past := flow.past (time, c) (by simp [first])
            exact absurd (past.trans ahead) late

/-- The worker takes up a request by a deadline. -/
theorem serves_by {start sent : Nat} {rest : List (Nat × DispatchFrame)}
    (first : s.worker.requests = (sent, d) :: rest) (alive : s.worker.closedAt = none)
    (free : max s.worker.freeAt sent = start) :
    s.Reaches { s with
      worker :=
        { s.worker.serve start d with requests := rest, clock := max s.worker.clock start }
      computed := s.computedAfter d } := by
  have ticked : s.Step { s with worker := { s.worker with clock := max s.worker.clock start } } :=
    .tick start
  have served : Step { s with worker := { s.worker with clock := max s.worker.clock start } } { s with
      worker :=
        { s.worker with requests := rest, clock := max s.worker.clock start }.serve start d
      computed := s.computedAfter d } :=
    .serve first alive free.le (le_max_right _ _)
  rw [RemoteWorker.serve_with] at served
  exact ticked.reaches.trans served.reaches

section Served

variable {w : RemoteWorker} {computed : List (DispatchFrame × Option (Except String Ciphertext))}
  {rest : List (Nat × DispatchFrame)} {start deadline : Nat}
  (reaches : s.Reaches { s with
    worker := { w with requests := rest, clock := max s.worker.clock start }, computed })
  (same : w.clock = s.worker.clock)

include reaches same in
/-- A request that was taken up has been answered. -/
theorem receives_answer {time : Nat} {c : CompletionFrame} (answered : w.completions = [(time, c)])
    (later : start ≤ time) (fewer : rest.length < s.worker.outstanding)
    (ahead : s.worker.clock ≤ deadline) (ready : start ≤ deadline) :
    s.Receives deadline (w.receive deadline rest) := by
  have clock (t : Nat) (le : start ≤ t) : max (max s.worker.clock start) t = max w.clock t := by
    rw [max_assoc, max_eq_right le, same]
  unfold RemoteWorker.receive
  rw [answered]
  dsimp only
  split
  · refine ⟨time, computed, ?_, ?_⟩
    · have ticked := reaches.step (.tick time)
      dsimp only at ticked
      rw [clock time later] at ticked
      rw [← answered]
      exact ticked
    · simpa [RemoteWorker.outstanding] using fewer
  · refine ⟨computed, ?_, le_rfl, ?_⟩
    · have ticked := reaches.step (.tick deadline)
      dsimp only at ticked
      rw [clock deadline ready] at ticked
      rw [← answered]
      exact ticked
    · rw [same]
      exact max_eq_right ahead

include reaches same in
/-- A request that was taken up has made the worker crash. -/
theorem receives_crash (nothing : w.completions = []) (ended : w.closedAt.isSome = true)
    (ahead : s.worker.clock ≤ deadline) (ready : start ≤ deadline) :
    s.Receives deadline (w.receive deadline rest) := by
  have clock : max (max s.worker.clock start) deadline = max w.clock deadline := by
    rw [max_assoc, max_eq_right ready, same]
  rw [RemoteWorker.receive_none nothing fun _ _ => .inl ended]
  refine ⟨computed, ?_, by simp [nothing], ?_⟩
  · have ticked := reaches.step (.tick deadline)
    dsimp only at ticked
    rw [clock] at ticked
    exact ticked
  · rw [same]
    exact max_eq_right ahead

end Served

/-- What is received by a deadline comes of steps of the worker and of the clock. -/
theorem receives (v : s.Valid) {deadline : Nat} (ahead : s.worker.clock ≤ deadline) :
    s.Receives deadline (s.worker.receive deadline s.worker.requests) := by
  cases arriving : s.worker.completions with
  | cons a rest => exact receives_first v arriving ahead
  | nil =>
      have nothing : s.Receives deadline
          (none, { s.worker with clock := max s.worker.clock deadline }) := by
        refine ⟨s.computed, (Step.tick deadline).reaches, ?_, max_eq_right ahead⟩
        simp [arriving]
      cases queued : s.worker.requests with
      | nil =>
          rw [RemoteWorker.receive_none arriving (by simp), ← queued]
          exact nothing
      | cons request rest =>
          obtain ⟨sent, d⟩ := request
          by_cases late : s.worker.closedAt.isSome = true ∨ deadline < max s.worker.freeAt sent
          · rw [RemoteWorker.receive_none arriving (by simpa using late), ← queued]
            exact nothing
          · obtain ⟨alive, ready⟩ := not_or.mp late
            have alive : s.worker.closedAt = none := by simpa using alive
            have reaches := serves_by queued alive rfl
            have served := RemoteWorker.served s.worker (max s.worker.freeAt sent) d
            have fewer : rest.length < s.worker.outstanding := by
              simp [RemoteWorker.outstanding, queued, arriving]
            have first (a : Nat × CompletionFrame) : s.worker.completions ++ [a] = [a] := by
              rw [arriving, List.nil_append]
            simp only [RemoteWorker.receive, arriving, if_neg late]
            generalize s.worker.serve (max s.worker.freeAt sent) d = w at reaches served ⊢
            cases served with
            | recalled found =>
                exact receives_answer reaches rfl (first _) le_rfl fewer ahead (not_lt.mp ready)
            | answered fresh reply later called =>
                exact receives_answer reaches rfl (first _) later fewer ahead (not_lt.mp ready)
            | crashed fresh reply =>
                exact receives_crash reaches rfl arriving rfl ahead (not_lt.mp ready)

/-- How waiting for a delivery comes to its end. -/
def Awaits (s : Link) : RemoteWorker.Wait × RemoteWorker → Prop
  | (.accepted result, w) => ∃ c computed, c.result = result ∧ s.Reaches { s with
      worker := w, caller := .idle, computed
      accepted := s.accepted ++ [(s.dispatched.length - 1, c)] }
  | (.closed, w) => ∃ computed, s.Reaches { s with worker := w, caller := .idle, computed }
  | (.expired, w) => ∃ computed, s.Reaches { s with worker := w, computed } ∧
      w.completions.length ≤ 1

/-- Some waiting may go before. -/
theorem Awaits.before {w : RemoteWorker}
    {computed : List (DispatchFrame × Option (Except String Ciphertext))}
    (reaches : s.Reaches { s with worker := w, computed }) {outcome : RemoteWorker.Wait × RemoteWorker}
    (h : Awaits { s with worker := w, computed } outcome) : s.Awaits outcome := by
  obtain ⟨wait, w'⟩ := outcome
  cases wait with
  | accepted result =>
      obtain ⟨c, computed', same, later⟩ := h
      exact ⟨c, computed', same, reaches.trans later⟩
  | closed =>
      obtain ⟨computed', later⟩ := h
      exact ⟨computed', reaches.trans later⟩
  | expired =>
      obtain ⟨computed', later, quiet⟩ := h
      exact ⟨computed', reaches.trans later, quiet⟩

/-- Waiting for a delivery comes of dropping other completions until one is accepted, the worker has
ended, or the time is over. -/
theorem awaits (fuel : Nat) (v : s.Valid) (waits : s.caller = .waiting d left)
    (enough : s.worker.outstanding < fuel) : s.Awaits (s.worker.await d.delivery fuel) := by
  induction fuel generalizing s with
  | zero => exact absurd enough (Nat.not_lt_zero _)
  | succ fuel ih =>
      have received := receives v (Nat.le_add_right s.worker.clock s.worker.options.ackTimeout)
      unfold RemoteWorker.await
      dsimp only
      generalize s.worker.receive (s.worker.clock + s.worker.options.ackTimeout) s.worker.requests =
        outcome at received ⊢
      obtain ⟨c?, w⟩ := outcome
      cases c? with
      | some c =>
          obtain ⟨time, computed, reaches, fewer⟩ := received
          dsimp only
          by_cases own : c.delivery = d.delivery
          · rw [if_pos own]
            exact ⟨c, computed, rfl, reaches.step (.accept waits rfl own)⟩
          · rw [if_neg own]
            have dropped := reaches.step (.drop waits rfl own)
            exact .before dropped
              (ih (v.reaches dropped) waits (Nat.lt_of_lt_of_le fewer (Nat.le_of_lt_succ enough)))
      | none =>
          obtain ⟨computed, reaches, quiet, clock⟩ := received
          dsimp only
          rw [← clock]
          cases closed : w.closedBy w.clock with
          | true => exact ⟨computed, reaches.step (.hangUp waits closed quiet)⟩
          | false => exact ⟨computed, reaches, quiet⟩

/-- How a call ends once its request was dispatched: with the result of one completion that was
accepted, or with an error of the worker, and then nothing was accepted. -/
def Delivers (s : Link) (outcome : Except RunError Ciphertext × RemoteWorker) : Prop :=
  ∃ computed accepted,
    s.Reaches { s with worker := outcome.2, caller := .idle, computed, accepted } ∧
      ((∃ c, accepted = s.accepted ++ [(s.dispatched.length - 1, c)] ∧
          outcome.1 = c.result.mapError outcome.2.failure) ∨
        (accepted = s.accepted ∧ ∃ reason, outcome.1 = .error (outcome.2.failure reason)))

/-- Some sending and waiting may go before. -/
theorem Delivers.before {w : RemoteWorker} {caller : Caller}
    {computed : List (DispatchFrame × Option (Except String Ciphertext))}
    (reaches : s.Reaches { s with worker := w, caller, computed })
    {outcome : Except RunError Ciphertext × RemoteWorker}
    (h : Delivers { s with worker := w, caller, computed } outcome) : s.Delivers outcome := by
  obtain ⟨computed', accepted, later, result⟩ := h
  exact ⟨computed', accepted, reaches.trans later, result⟩

/-- A delivery comes of waiting and of sending the request again. -/
theorem delivers (v : s.Valid) (waits : s.caller = .waiting d left) :
    s.Delivers (s.worker.deliver d left) := by
  induction left generalizing s with
  | zero =>
      have awaited := awaits (s.worker.outstanding + 1) v waits (Nat.lt_succ_self _)
      unfold RemoteWorker.deliver
      generalize s.worker.await d.delivery (s.worker.outstanding + 1) = outcome at awaited ⊢
      obtain ⟨wait, w⟩ := outcome
      cases wait with
      | accepted result =>
          obtain ⟨c, computed, rfl, reaches⟩ := awaited
          exact ⟨computed, _, reaches, .inl ⟨c, rfl, rfl⟩⟩
      | closed =>
          obtain ⟨computed, reaches⟩ := awaited
          exact ⟨computed, s.accepted, reaches, .inr ⟨rfl, _, rfl⟩⟩
      | expired =>
          obtain ⟨computed, reaches, quiet⟩ := awaited
          exact ⟨computed, s.accepted, reaches.step (.giveUp waits quiet), .inr ⟨rfl, _, rfl⟩⟩
  | succ left ih =>
      have awaited := awaits (s.worker.outstanding + 1) v waits (Nat.lt_succ_self _)
      unfold RemoteWorker.deliver
      generalize s.worker.await d.delivery (s.worker.outstanding + 1) = outcome at awaited ⊢
      obtain ⟨wait, w⟩ := outcome
      cases wait with
      | accepted result =>
          obtain ⟨c, computed, rfl, reaches⟩ := awaited
          exact ⟨computed, _, reaches, .inl ⟨c, rfl, rfl⟩⟩
      | closed =>
          obtain ⟨computed, reaches⟩ := awaited
          exact ⟨computed, s.accepted, reaches, .inr ⟨rfl, _, rfl⟩⟩
      | expired =>
          obtain ⟨computed, reaches, quiet⟩ := awaited
          have expired := reaches.step (.expire waits quiet)
          obtain ⟨w', computed', ready, space, sent⟩ := sends (v.reaches expired) d
          dsimp only at sent
          dsimp only
          rw [sent]
          have ready := expired.trans ready
          cases ended : w'.closedBy w'.clock with
          | true =>
              exact ⟨computed', s.accepted, ready.step (.refuse (.inr ⟨left, rfl⟩) ended),
                .inr ⟨rfl, _, rfl⟩⟩
          | false =>
              have resent := ready.step (.resend rfl ended (space ended))
              exact .before resent (ih (v.reaches resent) rfl)

end Link

/-! ## the laws of deliveries -/

namespace RemoteWorker

/-- The request of a call. -/
def requestOf (w : RemoteWorker) (n : Node) (partition : Partition) (source : Option Partition)
    (seed : KeySeed) (inputs : List Ciphertext) (nonce : UInt64) : DispatchFrame :=
  { delivery := w.nextDelivery, node := n.id, op := n.op, partition, source, seed, inputs, nonce }

theorem execute_eq (w : RemoteWorker) (n : Node) (partition : Partition) (source : Option Partition)
    (seed : KeySeed) (inputs : List Ciphertext) (nonce : UInt64) :
    w.execute n partition source seed inputs nonce =
      match { w with nextDelivery := w.nextDelivery + 1 }.send
        (w.requestOf n partition source seed inputs nonce) with
      | (.error e, w) => (.error e, w)
      | (.ok (), w') =>
        deliver (w.requestOf n partition source seed inputs nonce) w'.options.maxRetransmits
          (w'.count fun n => { n with dispatched := n.dispatched + 1 }) := rfl

end RemoteWorker

namespace Link

variable {s t : Link} {d : DispatchFrame}

/-- What has come of a call. Either its request was dispatched, as the next one, a completion was
accepted for it, and the result is the answer that was computed from this request; or an error of
the worker is returned, and nothing was accepted. -/
def Executed (s t : Link) (d : DispatchFrame) (result : Except RunError Ciphertext) : Prop :=
  (∃ r, t.dispatched = s.dispatched ++ [d] ∧
      t.accepted = s.accepted ++ [(s.dispatched.length, ⟨d.delivery, d.node, r⟩)] ∧
      t.computed[s.dispatched.length]? = some (d, some r) ∧
      result = r.mapError t.worker.failure) ∨
    (t.accepted = s.accepted ∧ ∃ reason, result = .error (t.worker.failure reason))

/-- The completion that is accepted for the request dispatched last answers it. -/
theorem Flow.answers_last {arrived lost waiting : List Nat} {c : CompletionFrame}
    {before : List DispatchFrame} {earlier : List (Nat × CompletionFrame)}
    (f : t.Flow arrived lost waiting) (dispatched : t.dispatched = before ++ [d])
    (accepted : t.accepted = earlier ++ [(before.length, c)]) :
    ∃ r, t.computed[before.length]? = some (d, some r) ∧ c = ⟨d.delivery, d.node, r⟩ := by
  obtain ⟨-, d', r, found, same⟩ := f.accepted (before.length, c) (by simp [accepted])
  have own := f.dispatched_of_computed found
  rw [dispatched, List.getElem?_concat_length, Option.some.injEq] at own
  subst own
  exact ⟨r, found, same⟩

/-- A call on a worker by the clock is some interleaving of steps, which dispatches its own request at
most. -/
theorem executes_request (v : s.Valid) (free : s.caller = .idle) (n : Node) (partition : Partition)
    (source : Option Partition) (seed : KeySeed) (inputs : List Ciphertext) (nonce : UInt64) :
    ∃ t, s.Reaches t ∧ t.caller = .idle ∧
      t.worker = (s.worker.execute n partition source seed inputs nonce).2 ∧
      t.dispatched ⊆ s.dispatched ++ [s.worker.requestOf n partition source seed inputs nonce] ∧
      s.Executed t (s.worker.requestOf n partition source seed inputs nonce)
        (s.worker.execute n partition source seed inputs nonce).1 := by
  have numbered : (s.worker.requestOf n partition source seed inputs nonce).delivery =
      s.worker.nextDelivery := rfl
  rw [RemoteWorker.execute_eq]
  generalize s.worker.requestOf n partition source seed inputs nonce = d at numbered ⊢
  have opened := (Step.open free numbered).reaches
  obtain ⟨w, computed, ready, space, sent⟩ := sends (v.reaches opened) d
  dsimp only at sent
  rw [sent]
  have ready := opened.trans ready
  cases ended : w.closedBy w.clock with
  | true =>
      exact ⟨_, ready.step (.refuse (.inl rfl) ended), rfl, rfl, List.subset_append_left _ _,
        .inr ⟨rfl, _, rfl⟩⟩
  | false =>
      have dispatched := ready.step (.dispatch rfl ended (space ended))
      obtain ⟨computed', accepted, later, result⟩ := delivers (v.reaches dispatched) rfl
      have reaches := dispatched.trans later
      refine ⟨_, reaches, rfl, rfl, List.Subset.refl _, ?_⟩
      rcases result with ⟨c, rfl, same⟩ | ⟨rfl, reason, same⟩
      · obtain ⟨arrived, lost, waiting, flow⟩ := v.reaches reaches
        simp only [List.length_append, List.length_singleton, Nat.add_sub_cancel] at flow ⊢
        obtain ⟨r, found, rfl⟩ := flow.answers_last rfl rfl
        exact .inl ⟨r, rfl, rfl, found, same⟩
      · exact .inr ⟨rfl, reason, same⟩

theorem executes (v : s.Valid) (free : s.caller = .idle) (n : Node) (partition : Partition)
    (source : Option Partition) (seed : KeySeed) (inputs : List Ciphertext) (nonce : UInt64) :
    ∃ t, s.Reaches t ∧ t.caller = .idle ∧
      t.worker = (s.worker.execute n partition source seed inputs nonce).2 ∧
      s.Executed t (s.worker.requestOf n partition source seed inputs nonce)
        (s.worker.execute n partition source seed inputs nonce).1 := by
  obtain ⟨t, reaches, idle, after, -, executed⟩ :=
    executes_request v free n partition source seed inputs nonce
  exact ⟨t, reaches, idle, after, executed⟩

/-- The settings stay, and every answer is what a worker of these settings computes from the very
request. -/
structure Replies (s : Link) (o : RemoteOptions) : Prop where
  options : s.worker.options = o
  replied : ∀ x ∈ s.computed, ∃ w : RemoteWorker, w.options = o ∧ x.2 = w.reply? x.1

/-- What a step adds to what was computed is the reply to one request, with the keys of the worker, which
fetches no others. -/
theorem Step.computes (h : s.Step t) :
    t.worker.options = s.worker.options ∧
      (t.worker.keys = s.worker.keys ∨
        ∃ x ∈ t.computed, t.worker.keys = (RemoteWorker.keysFor s.worker.keys x.1).2) ∧
      ∀ x ∈ t.computed, x ∈ s.computed ∨ x.2 = s.worker.reply? x.1 := by
  cases h with
  | @serve sent d rest start first alive free now =>
      refine ⟨(RemoteWorker.served { s.worker with requests := rest } start d).kept.1, ?_,
        fun x mem => ?_⟩
      · rcases RemoteWorker.keys_serve { s.worker with requests := rest } start d with
          same | ⟨new, fetched⟩
        · exact .inl same
        · have new : s.worker.remembers d = false := new
          refine .inr ⟨(d, s.worker.reply? d), ?_, fetched⟩
          simp [computedAfter, new]
      · unfold computedAfter at mem
        split at mem
        · exact .inl mem
        · rcases List.mem_append.mp mem with old | last
          · exact .inl old
          · rw [List.mem_singleton.mp last]
            exact .inr rfl
  | _ => exact ⟨rfl, .inl rfl, fun _ => .inl⟩

/-- What was dispatched stays so. -/
theorem Step.dispatched_subset (h : s.Step t) : s.dispatched ⊆ t.dispatched := by
  cases h with
  | dispatch => exact List.subset_append_left _ _
  | _ => exact List.Subset.refl _

theorem Replies.step {o : RemoteOptions} (r : s.Replies o) (h : s.Step t) : t.Replies o := by
  obtain ⟨options, -, computed⟩ := h.computes
  refine ⟨options.trans r.options, fun x mem => ?_⟩
  rcases computed x mem with old | new
  · exact r.replied x old
  · exact ⟨s.worker, r.options, new⟩

theorem Reaches.replies {o : RemoteOptions} (h : s.Reaches t) (r : s.Replies o) : t.Replies o := by
  induction h with
  | refl => exact r
  | step _ last ih => exact ih.step last

/-- A number is not borne by another delivery before all numbers have run out. -/
theorem Flow.delivery_inj {arrived lost waiting : List Nat} (f : s.Flow arrived lost waiting)
    {i k : Nat} {d' : DispatchFrame} (first : s.dispatched[i]? = some d)
    (second : s.dispatched[k]? = some d') (same : d.delivery = d'.delivery) (le : i ≤ k) :
    i = k ∨ i + 2 ^ 64 ≤ k := by
  rcases Nat.lt_or_ge k (i + 2 ^ 64) with near | apart
  · rw [f.numbered i d first, f.numbered k d' second] at same
    exact .inl (number_inj same le near)
  · exact .inr apart

end Link

namespace RemoteWorker

/-- However the context and the worker take turns, each delivery is computed at most once, in the
order of dispatch, and at most one completion is accepted for it, which bears the answer computed
from its own request. Two computations under one number are of deliveries `2 ^ 64` apart, when the
numbers have run out in between. A call by the clock is one way in which they take turns, and what
it returns is the answer to its own request, or an error of the worker. -/
theorem delivers_at_most_once {index : Nat} {name : String} {options : RemoteOptions}
    {w : RemoteWorker} (fresh : start? index name options = some w) {s : Link}
    (h : (Link.start w).Reaches s) :
    -- the worker runs the primitives at most once for each delivery
    s.computed.map (·.1) <+: s.dispatched ∧
      s.worker.calls.reverse.Sublist (s.computed.map fun x => callOf x.1) ∧
      (∀ i d, s.dispatched[i]? = some d → d.delivery = Link.number i) ∧
      (∀ i k x y, i ≤ k → s.computed[i]? = some x → s.computed[k]? = some y →
        x.1.delivery = y.1.delivery → i = k ∨ i + 2 ^ 64 ≤ k) ∧
      (∀ x ∈ s.computed, ∃ v : RemoteWorker, v.options = options ∧ x.2 = v.reply? x.1) ∧
      -- and the context accepts at most one completion, that of this delivery
      (s.accepted.map (·.1)).Nodup ∧
      (∀ x ∈ s.accepted, ∃ d, s.dispatched[x.1]? = some d ∧
        s.computed[x.1]? = some (d, some x.2.result) ∧ x.2.delivery = d.delivery) ∧
      -- so does a call
      (s.caller = .idle → ∀ n partition source seed inputs nonce, ∃ t,
        (Link.start w).Reaches t ∧ t.caller = .idle ∧
          t.worker = (s.worker.execute n partition source seed inputs nonce).2 ∧
          s.Executed t (s.worker.requestOf n partition source seed inputs nonce)
            (s.worker.execute n partition source seed inputs nonce).1) := by
  have v : s.Valid := h.flow ⟨_, _, _, Link.Flow.start fresh⟩
  have ⟨arrived, lost, waiting, flow⟩ := v
  have settings : w.options = options := by
    unfold start? at fresh
    split at fresh
    · rw [← Option.some.inj fresh]
      rfl
    · contradiction
  have replies := h.replies ⟨settings, fun _ mem => absurd mem List.not_mem_nil⟩
  have computed : s.computed.map (·.1) <+: s.dispatched := by
    rw [flow.taken]
    exact List.take_prefix _ _
  refine ⟨computed, flow.calls, flow.numbered, fun i k x y le first second same => ?_,
    replies.replied, flow.distinct, fun x mem => ?_,
    fun free n partition source seed inputs nonce => ?_⟩
  · exact flow.delivery_inj (flow.dispatched_of_computed first) (flow.dispatched_of_computed second)
      same le
  · obtain ⟨-, d, r, found, same⟩ := flow.accepted x mem
    refine ⟨d, flow.dispatched_of_computed found, ?_, ?_⟩
    · rw [found, same]
    · rw [same]
  · obtain ⟨t, reaches, rest⟩ := Link.executes v free n partition source seed inputs nonce
    exact ⟨t, h.trans reaches, rest⟩

end RemoteWorker

/-! ## a link on which every request is sent twice -/

namespace SlowLink

/-- An answer arrives after the request was sent again, but before the waiting ends. -/
def options : RemoteOptions := { ackTimeout := 10, latency := 15, maxRetransmits := 1 }

def worker : RemoteWorker := .spawn 0 "remote-0" options

def partition : Partition := { name := "P", lweDim := 1, glweDim := 1, polySize := 4 }

def node : Node :=
  { id := ⟨0⟩, op := .neg, inputs := [⟨0⟩], output := ⟨1⟩, partition := ⟨0⟩ }

/-- A call that negates five equal words. -/
def negate (w : RemoteWorker) (word : UInt64) : Except RunError Ciphertext × RemoteWorker :=
  w.execute node partition none {} [.replicate 5 word] 7

/-- The second answer to the first call arrives during the second call, which drops it and returns
the answer to its own request. -/
theorem delivers_at_most_once_late :
    RemoteWorker.start? 0 "remote-0" options = some worker ∧
      (negate (negate worker 1).2 2).1.toOption = some (.replicate 5 (0 - 2)) ∧
      (negate (negate worker 1).2 2).2.counters.retransmits = 2 ∧
      (negate (negate worker 1).2 2).2.counters.staleCompletions = 1 ∧
      ∃ s t, (Link.start worker).Reaches s ∧ (Link.start worker).Reaches t ∧
        t.worker = (negate (negate worker 1).2 2).2 ∧
        (∃ r, t.computed[s.dispatched.length]? = some ((negate worker 1).2.requestOf node partition none
          {} [.replicate 5 2] 7, some r) ∧ r.toOption = some (.replicate 5 (0 - 2))) ∧
        (t.accepted.map (·.1)).Nodup := by
  have starts : RemoteWorker.canStart "remote-0" options = true := by decide +kernel
  have fresh : RemoteWorker.start? 0 "remote-0" options = some worker := if_pos starts
  have second : (negate (negate worker 1).2 2).1.toOption = some (.replicate 5 (0 - 2)) := by
    decide +kernel
  refine ⟨fresh, second, by decide +kernel, by decide +kernel, ?_⟩
  obtain ⟨-, -, -, -, -, -, -, calls⟩ := RemoteWorker.delivers_at_most_once fresh .refl
  obtain ⟨s, reaches, idle, after, -⟩ := calls rfl node partition none {} [.replicate 5 1] 7
  obtain ⟨-, -, -, -, -, -, -, calls⟩ := RemoteWorker.delivers_at_most_once fresh reaches
  obtain ⟨t, reaches', -, after', executed⟩ := calls idle node partition none {} [.replicate 5 2] 7
  obtain ⟨-, -, -, -, -, distinct, -, -⟩ := RemoteWorker.delivers_at_most_once fresh reaches'
  have after : s.worker = (negate worker 1).2 := after
  rw [← negate, after] at after' executed
  refine ⟨s, t, reaches, reaches', after', ?_, distinct⟩
  rcases executed with ⟨r, -, -, found, result⟩ | ⟨-, reason, result⟩
  · refine ⟨r, found, ?_⟩
    rw [result] at second
    cases r with
    | error text => exact absurd second.symm (Option.some_ne_none _)
    | ok words => exact second
  · rw [result] at second
    exact absurd second.symm (Option.some_ne_none _)

end SlowLink

end HomCircuit
