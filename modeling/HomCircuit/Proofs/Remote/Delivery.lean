import Mathlib
import HomCircuit.Remote.Link

/-!
# HomCircuit.Proofs.Remote.Delivery

A delivery is computed at most once, and its call accepts the completion of its own request at most
once, however the context and the worker take turns.

The two queues are one: what the worker takes up at the end of the requests goes to the end of the
completions. Numbered by their deliveries, its frames ascend, and none is missing.

```
completions        requests            (crashed)
i ≤ i ≤ i+1 ≤ …  ≤ m-1 ≤ m-1 ≤ m ≤ … ≤ S-1        m computed,  S dispatched
```

So the worker meets copies of the delivery that it computed last, which it remembers, or the next
one. As both queues are short, none of their frames bears the number of a later delivery, even when
the numbers have run out and begun anew.

* `RemoteWorker.Served` — all that can come of a request that is taken up;
* `Link.Flow` — the invariant, kept by `Link.Flow.step`;
* `Link.Reaches.flow` — so it holds in every state that a fresh link comes to.
-/

namespace HomCircuit

namespace RemoteWorker

variable {w : RemoteWorker} {start : Nat} {d : DispatchFrame}

/-! ## a request that is taken up -/

/-- A call of primitives for a request. -/
def callOf (d : DispatchFrame) : PrimitiveCall := ⟨d.op, d.nonce⟩

/-- All that can come of a request that is taken up: it is answered from memory, or computed and
answered, or it makes the worker crash. -/
inductive Served (w : RemoteWorker) (start : Nat) (d : DispatchFrame) : RemoteWorker → Prop
  | recalled {c : CompletionFrame} {counters : RemoteCounters}
      (found : w.remembered.find? (·.delivery == d.delivery) = some c) :
      Served w start d
        { w with counters, completions := w.completions ++ [(start, c)], freeAt := start }
  | answered {r : Except String Ciphertext} {keys : KeyCache} {calls : List PrimitiveCall}
      {counters : RemoteCounters} {time : Nat} (fresh : w.remembers d = false)
      (reply : w.reply? d = some r) (later : start ≤ time)
      (called : calls = w.calls ∨ calls = callOf d :: w.calls) :
      Served w start d
        { w with
          keys, calls, counters
          completions := w.completions ++ [(time, ⟨d.delivery, d.node, r⟩)]
          freeAt := time
          remembered := (⟨d.delivery, d.node, r⟩ :: w.remembered).take memory }
  | crashed {keys : KeyCache} {time : Nat} (fresh : w.remembers d = false)
      (reply : w.reply? d = none) :
      Served w start d { w with keys, calls := callOf d :: w.calls, closedAt := some time }

theorem remembers_of_find? {c : CompletionFrame}
    (found : w.remembered.find? (·.delivery == d.delivery) = some c) : w.remembers d = true :=
  List.any_eq_true.mpr ⟨c, List.mem_of_find?_eq_some found, by simpa using List.find?_some found⟩

theorem served_compute (fresh : w.remembers d = false) : Served w start d (w.compute start d) := by
  unfold compute
  cases got : keysFor w.keys d with
  | mk keys cache =>
      cases keys with
      | error reason =>
          exact .answered fresh (by simp [reply?, got]) (Nat.le_add_right _ _) (.inl rfl)
      | ok keys =>
          dsimp only
          cases ran : w.options.primitives.run d.op d.inputs keys d.nonce with
          | crashed text => exact .crashed fresh (by simp [reply?, got, ran])
          | failed err =>
              exact .answered fresh (by simp [reply?, got, ran]) (by omega) (.inr rfl)
          | done words =>
              exact .answered fresh (by simp [reply?, got, ran]) (by omega) (.inr rfl)

theorem served (w : RemoteWorker) (start : Nat) (d : DispatchFrame) :
    Served w start d (w.serve start d) := by
  unfold serve
  cases found : w.remembered.find? (·.delivery == d.delivery) with
  | some c => exact .recalled found
  | none =>
      refine served_compute ?_
      rw [remembers, List.any_eq_false]
      exact fun c mem => List.find?_eq_none.mp found c mem

end RemoteWorker

/-! ## the invariant -/

namespace Link

/-- What the call at hand adds to the deliveries that were dispatched. -/
def Caller.pending : Caller → Nat
  | .opening _ => 1
  | _ => 0

/-- What the call at hand adds to the requests that may be left over. -/
def Caller.slack : Caller → Nat
  | .waiting _ _ => 1
  | _ => 0

/-- The request of the call at hand, once it was dispatched. -/
def Caller.current? : Caller → Option DispatchFrame
  | .waiting d _ => some d
  | .resending d _ => some d
  | _ => none

/-- The delivery number of the delivery at some place; the numbers begin anew when they run out. -/
def number (i : Nat) : UInt64 := UInt64.ofNat (i + 1)

/-- The worker has not ended yet. -/
def Open (s : Link) : Prop := s.worker.closedBy s.worker.clock = false

/-- A completion answers the request that was computed at some place. -/
def Answers (s : Link) (i : Nat) (c : CompletionFrame) : Prop :=
  ∃ d r, s.computed[i]? = some (d, some r) ∧ c = ⟨d.delivery, d.node, r⟩

/-- A completion that is remembered for a request that was computed. -/
def Recalls (x : DispatchFrame × Option (Except String Ciphertext)) (c : CompletionFrame) : Prop :=
  ∃ r, x.2 = some r ∧ c = ⟨x.1.delivery, x.1.node, r⟩

/-- The places of the deliveries whose frames are on their way: completions, a request that made the
worker crash, and requests. -/
structure Flow (s : Link) (arrived lost waiting : List Nat) : Prop where
  room : s.worker.room ≤ queueLimit
  numbered : ∀ i d, s.dispatched[i]? = some d → d.delivery = number i
  taken : s.computed.map (·.1) = s.dispatched.take s.computed.length
  calls : s.worker.calls.reverse.Sublist (s.computed.map fun x => RemoteWorker.callOf x.1)
  -- what is on its way
  requests : List.Forall₂ (fun i r => s.dispatched[i]? = some r.2) waiting s.worker.requests
  completions : List.Forall₂ (fun i a => s.Answers i a.2) arrived s.worker.completions
  sorted : (arrived ++ lost ++ waiting).Pairwise (· ≤ ·)
  below : ∀ i ∈ arrived ++ lost ++ waiting, i < s.dispatched.length
  upward : s.Open → ∀ i ∈ arrived ++ lost ++ waiting, ∀ k, i ≤ k → k < s.dispatched.length →
    k ∈ arrived ++ lost ++ waiting
  -- the worker, until it ends
  recent : s.worker.closedAt = none → ∀ i ∈ waiting, s.computed.length ≤ i + 1
  covers : s.worker.closedAt = none → ∀ k, s.computed.length ≤ k → k < s.dispatched.length →
    k ∈ waiting
  recalls : s.worker.closedAt = none →
    List.Forall₂ Recalls (s.computed.reverse.take RemoteWorker.memory) s.worker.remembered
  lost_nil : s.worker.closedAt = none → lost = []
  lost_le : lost.length ≤ 1
  -- how much is on its way
  space : s.worker.requests.length ≤ s.worker.room
  bound : s.Open → arrived.length + lost.length + waiting.length ≤
    s.worker.room + 2 + s.caller.slack
  near : ∀ i ∈ arrived ++ lost ++ waiting, s.dispatched.length ≤ i + s.worker.room + 3
  -- the call at hand
  next : s.Open → s.worker.nextDelivery = number (s.dispatched.length + s.caller.pending)
  opens : s.Open → ∀ d, s.caller = .opening d → d.delivery = number s.dispatched.length
  current : ∀ d, s.caller.current? = some d →
    s.dispatched.getLast? = some d ∧ ∀ x ∈ s.accepted, x.1 + 1 < s.dispatched.length
  accepted : ∀ x ∈ s.accepted, x.1 < s.dispatched.length ∧ s.Answers x.1 x.2
  distinct : (s.accepted.map (·.1)).Nodup
  -- the clock
  free : ∀ a ∈ s.worker.completions, a.1 ≤ s.worker.freeAt
  past : ∀ a ∈ s.worker.completions.dropLast, a.1 ≤ s.worker.clock

/-- A completion answers the same request when more has been computed. -/
theorem Answers.mono {s : Link} {x : DispatchFrame × Option (Except String Ciphertext)} {i : Nat}
    {c : CompletionFrame} (h : s.Answers i c) : ({ s with computed := s.computed ++ [x] }).Answers i c := by
  obtain ⟨d, r, found, same⟩ := h
  refine ⟨d, r, ?_, same⟩
  rw [List.getElem?_append_left (List.getElem?_eq_some_iff.mp found).1, found]

namespace Flow

variable {s : Link} {arrived lost waiting : List Nat} {d : DispatchFrame} {left : Nat}

/-! ## what was computed -/

theorem length_computed_le (f : s.Flow arrived lost waiting) :
    s.computed.length ≤ s.dispatched.length := by
  have lengths := congrArg List.length f.taken
  rw [List.length_map, List.length_take] at lengths
  omega

/-- What was computed had been dispatched in the same place. -/
theorem dispatched_of_computed (f : s.Flow arrived lost waiting) {i : Nat}
    {x : DispatchFrame × Option (Except String Ciphertext)} (found : s.computed[i]? = some x) :
    s.dispatched[i]? = some x.1 := by
  have taken := congrArg (·[i]?) f.taken
  simp only [List.getElem?_map, found, Option.map_some, List.getElem?_take] at taken
  split at taken
  · exact taken.symm
  · contradiction

/-! ## steps of the context -/

/-- The clock moves on. -/
theorem tick (f : s.Flow arrived lost waiting) (time : Nat) :
    Flow { s with worker := { s.worker with clock := max s.worker.clock time } } arrived lost
      waiting := by
  have before (opened : Open { s with
      worker := { s.worker with clock := max s.worker.clock time } }) : s.Open := by
    unfold Open RemoteWorker.closedBy at opened ⊢
    cases closed : s.worker.closedAt with
    | none => rfl
    | some t =>
        simp only [closed, Option.any_some, decide_eq_false_iff_not, not_le] at opened ⊢
        omega
  exact
    { f with
      upward := fun opened => f.upward (before opened)
      bound := fun opened => f.bound (before opened)
      next := fun opened => f.next (before opened)
      opens := fun opened => f.opens (before opened)
      past := fun a mem => (f.past a mem).trans (le_max_left _ _) }

theorem number_add_one (i : Nat) : number i + 1 = number (i + 1) := by
  unfold number
  rw [UInt64.ofNat_add (i + 1) 1]
  rfl

/-- A call begins. -/
theorem opening (f : s.Flow arrived lost waiting) (free : s.caller = .idle)
    (numbered : d.delivery = s.worker.nextDelivery) :
    Flow { s with
      caller := .opening d
      worker := { s.worker with nextDelivery := s.worker.nextDelivery + 1 } } arrived lost waiting :=
  { f with
    bound := fun opened => by
      have bound := f.bound opened
      rw [free] at bound
      exact bound
    next := fun opened => by
      have next := f.next opened
      rw [free] at next
      show s.worker.nextDelivery + 1 = _
      rw [next, number_add_one]
      rfl
    opens := fun opened d' same => by
      obtain rfl := Caller.opening.inj same
      have next := f.next opened
      rw [free] at next
      exact numbered.trans next
    current := fun _ same => absurd same.symm (Option.some_ne_none _) }

/-- No more is between a delivery and the latest one than is on its way. -/
theorem length_sub_le (f : s.Flow arrived lost waiting) (opened : s.Open) {i : Nat}
    (mem : i ∈ arrived ++ lost ++ waiting) :
    s.dispatched.length - i ≤ arrived.length + lost.length + waiting.length := by
  have all : List.range' i (s.dispatched.length - i) ⊆ arrived ++ lost ++ waiting := by
    intro k mem'
    have bounds := List.mem_range'_1.mp mem'
    exact f.upward opened i mem k bounds.1 (by omega)
  simpa [Nat.add_assoc] using (List.Nodup.subperm List.nodup_range' all).length_le

/-- A request is sent for the first time. -/
theorem dispatch (f : s.Flow arrived lost waiting) (ready : s.caller = .opening d)
    (alive : s.worker.closedBy s.worker.clock = false)
    (space : s.worker.requests.length < s.worker.room) :
    Flow { s with
      caller := .waiting d s.worker.options.maxRetransmits
      worker :=
        { s.worker with requests := s.worker.requests ++ [(s.worker.clock, d)] }.count
          fun n => { n with dispatched := n.dispatched + 1 }
      dispatched := s.dispatched ++ [d] } arrived lost (waiting ++ [s.dispatched.length]) := by
  have fewer := f.length_computed_le
  have kept {i : Nat} {d' : DispatchFrame} (found : s.dispatched[i]? = some d') :
      (s.dispatched ++ [d])[i]? = some d' := by
    rw [List.getElem?_append_left (List.getElem?_eq_some_iff.mp found).1, found]
  have length : (s.dispatched ++ [d]).length = s.dispatched.length + 1 := by simp
  have members {i : Nat} : i ∈ arrived ++ lost ++ (waiting ++ [s.dispatched.length]) ↔
      i ∈ arrived ++ lost ++ waiting ∨ i = s.dispatched.length := by
    simp [← List.append_assoc]
  have bound := f.bound alive
  rw [ready] at bound
  exact
    { f with
      numbered := fun i d' found => by
        rcases Nat.lt_or_ge i s.dispatched.length with old | new
        · rw [List.getElem?_append_left old] at found
          exact f.numbered i d' found
        · have inside := (List.getElem?_eq_some_iff.mp found).1
          rw [length] at inside
          obtain rfl : i = s.dispatched.length := by omega
          simp only [List.getElem?_concat_length, Option.some.injEq] at found
          subst found
          exact f.opens alive d ready
      taken := by
        show _ = (s.dispatched ++ [d]).take _
        rw [List.take_append_of_le_length fewer]
        exact f.taken
      requests := by
        refine List.rel_append (f.requests.imp fun i r found => kept found) (.cons ?_ .nil)
        exact List.getElem?_concat_length
      sorted := by
        rw [← List.append_assoc]
        refine List.pairwise_append.mpr ⟨f.sorted, List.pairwise_singleton _ _, fun i mem k last => ?_⟩
        rw [List.mem_singleton.mp last]
        exact (f.below i mem).le
      below := fun i mem => by
        rw [length]
        rcases members.mp mem with old | rfl
        · exact (f.below i old).trans (Nat.lt_succ_self _)
        · exact Nat.lt_succ_self _
      upward := fun opened i mem k le lt => by
        rw [length] at lt
        rw [members]
        rcases members.mp mem with old | rfl
        · rcases Nat.lt_succ_iff_lt_or_eq.mp lt with before | rfl
          · exact .inl (f.upward alive i old k le before)
          · exact .inr rfl
        · exact .inr (by omega)
      recent := fun here i mem => by
        rcases List.mem_append.mp mem with old | last
        · exact f.recent here i old
        · rw [List.mem_singleton.mp last]
          exact fewer.trans (Nat.le_succ _)
      covers := fun here k le lt => by
        rw [length] at lt
        rcases Nat.lt_succ_iff_lt_or_eq.mp lt with before | rfl
        · exact List.mem_append_left _ (f.covers here k le before)
        · simp
      space := by
        show (s.worker.requests ++ [(s.worker.clock, d)]).length ≤ s.worker.room
        rw [List.length_append]
        exact space
      bound := fun opened => by
        rw [List.length_append, List.length_singleton]
        exact Nat.add_le_add_right bound 1
      near := fun i mem => by
        rw [length]
        rcases members.mp mem with old | rfl
        · have near := f.length_sub_le alive old
          simp only [Caller.slack] at bound
          show _ ≤ i + s.worker.room + 3
          omega
        · show _ ≤ s.dispatched.length + s.worker.room + 3
          omega
      next := fun opened => by
        have next := f.next alive
        rw [ready] at next
        rw [length]
        exact next
      opens := fun _ _ same => Caller.noConfusion same
      current := fun d' same => by
        obtain rfl := Option.some.inj same
        refine ⟨by simp, fun x mem => ?_⟩
        rw [length]
        exact Nat.succ_lt_succ (f.accepted x mem).1
      accepted := fun x mem => by
        rw [length]
        exact ⟨(f.accepted x mem).1.trans (Nat.lt_succ_self _), (f.accepted x mem).2⟩ }

/-- A request is sent again. -/
theorem resend (f : s.Flow arrived lost waiting) (ready : s.caller = .resending d left)
    (alive : s.worker.closedBy s.worker.clock = false)
    (space : s.worker.requests.length < s.worker.room) :
    Flow { s with
      caller := .waiting d left
      worker := { s.worker with requests := s.worker.requests ++ [(s.worker.clock, d)] } }
      arrived lost (waiting ++ [s.dispatched.length - 1]) := by
  obtain ⟨latest, earlier⟩ := f.current d (by rw [ready]; rfl)
  have some_ : 0 < s.dispatched.length := by
    cases none : s.dispatched with
    | nil => simp [none] at latest
    | cons a l => exact Nat.succ_pos _
  have fewer := f.length_computed_le
  have members {i : Nat} : i ∈ arrived ++ lost ++ (waiting ++ [s.dispatched.length - 1]) ↔
      i ∈ arrived ++ lost ++ waiting ∨ i = s.dispatched.length - 1 := by
    simp [← List.append_assoc]
  have bound := f.bound alive
  rw [ready] at bound
  exact
    { f with
      requests := by
        refine List.rel_append f.requests (.cons ?_ .nil)
        rw [← List.getLast?_eq_getElem?, latest]
      sorted := by
        rw [← List.append_assoc]
        refine List.pairwise_append.mpr ⟨f.sorted, List.pairwise_singleton _ _, fun i mem k last => ?_⟩
        rw [List.mem_singleton.mp last]
        exact Nat.le_sub_one_of_lt (f.below i mem)
      below := fun i mem => by
        rcases members.mp mem with old | rfl
        · exact f.below i old
        · exact Nat.sub_one_lt_of_lt some_
      upward := fun opened i mem k le lt => by
        rw [members]
        rcases members.mp mem with old | rfl
        · exact .inl (f.upward alive i old k le lt)
        · exact .inr (Nat.le_antisymm (Nat.le_sub_one_of_lt lt) le)
      recent := fun here i mem => by
        rcases List.mem_append.mp mem with old | last
        · exact f.recent here i old
        · rw [List.mem_singleton.mp last, Nat.sub_add_cancel some_]
          exact fewer
      covers := fun here k le lt => List.mem_append_left _ (f.covers here k le lt)
      space := by
        show (s.worker.requests ++ [(s.worker.clock, d)]).length ≤ s.worker.room
        rw [List.length_append]
        exact space
      bound := fun opened => by
        rw [List.length_append, List.length_singleton]
        exact Nat.add_le_add_right bound 1
      near := fun i mem => by
        rcases members.mp mem with old | rfl
        · exact f.near i old
        · show s.dispatched.length ≤ s.dispatched.length - 1 + s.worker.room + 3
          omega
      next := fun opened => by
        have next := f.next alive
        rw [ready] at next
        exact next
      opens := fun _ _ same => Caller.noConfusion same
      current := fun d' same => by
        obtain rfl := Option.some.inj same
        exact ⟨latest, earlier⟩ }

/-- While nothing arrives, no more is on its way than fits. -/
theorem quiet_le (f : s.Flow arrived lost waiting) (quiet : s.worker.completions.length ≤ 1) :
    arrived.length + lost.length + waiting.length ≤ s.worker.room + 2 := by
  have few := f.completions.length_eq
  have queued := f.requests.length_eq
  have space := f.space
  have lost := f.lost_le
  omega

/-- The call at hand ends without a completion, since none arrives or the worker has ended. -/
theorem ends (f : s.Flow arrived lost waiting)
    (reason : s.worker.closedBy s.worker.clock = true ∨
      s.worker.completions.length ≤ 1 ∧ s.caller.pending = 0) :
    Flow { s with caller := .idle } arrived lost waiting := by
  have closed (opened : s.Open) : s.worker.completions.length ≤ 1 ∧ s.caller.pending = 0 :=
    reason.resolve_left fun ended => by
      rw [Open, ended] at opened
      contradiction
  exact
    { f with
      bound := fun opened => f.quiet_le (closed opened).1
      next := fun opened => by
        have next := f.next opened
        rw [(closed opened).2] at next
        exact next
      opens := fun _ _ same => Caller.noConfusion same
      current := fun _ same => absurd same.symm (Option.some_ne_none _) }

/-- No completion came in time. -/
theorem expire (f : s.Flow arrived lost waiting) (waits : s.caller = .waiting d (left + 1))
    (quiet : s.worker.completions.length ≤ 1) :
    Flow { s with
      caller := .resending d left
      worker := s.worker.count fun n => { n with retransmits := n.retransmits + 1 } }
      arrived lost waiting :=
  { f with
    bound := fun _ => f.quiet_le quiet
    next := fun opened => by
      have next := f.next opened
      rw [waits] at next
      exact next
    opens := fun _ _ same => Caller.noConfusion same
    current := fun d' same => by
      have current := f.current d'
      rw [waits] at current
      exact current same }

/-- The worker is ended. -/
theorem close (f : s.Flow arrived lost waiting)
    (settled : s.worker.closedAt = none ∨ s.worker.closedBy s.worker.clock = true) :
    Flow { s with
      worker :=
        { s.worker with
          closedAt := some (s.worker.closedAt.getD s.worker.clock)
          requests := [] } } arrived lost [] := by
  have ended : ¬Open { s with
      worker :=
        { s.worker with
          closedAt := some (s.worker.closedAt.getD s.worker.clock)
          requests := [] } } := by
    unfold Open RemoteWorker.closedBy
    cases closed : s.worker.closedAt with
    | none => simp
    | some t =>
        have past := settled.resolve_left (by simp [closed])
        simpa [RemoteWorker.closedBy, closed] using past
  have members {i : Nat} (mem : i ∈ arrived ++ lost ++ []) : i ∈ arrived ++ lost ++ waiting := by
    rw [List.append_nil] at mem
    exact List.mem_append_left _ mem
  exact
    { f with
      requests := .nil
      sorted := by
        rw [List.append_nil]
        exact (List.pairwise_append.mp f.sorted).1
      below := fun i mem => f.below i (members mem)
      upward := fun opened => absurd opened ended
      recent := nofun
      covers := nofun
      recalls := nofun
      lost_nil := nofun
      space := Nat.zero_le _
      bound := fun opened => absurd opened ended
      near := fun i mem => f.near i (members mem)
      next := fun opened => absurd opened ended
      opens := fun opened => absurd opened ended }

/-- A completion is taken off its queue. -/
theorem take (f : s.Flow arrived lost waiting) {time : Nat} {c : CompletionFrame}
    {rest : List (Nat × CompletionFrame)} (first : s.worker.completions = (time, c) :: rest)
    (g : RemoteCounters → RemoteCounters) :
    ∃ i arrived', arrived = i :: arrived' ∧ s.Answers i c ∧
      Flow { s with worker := { s.worker with completions := rest }.count g } arrived' lost
        waiting := by
  have completions := f.completions
  rw [first] at completions
  obtain ⟨i, arrived', answers, others, rfl⟩ := List.forall₂_cons_right_iff.mp completions
  have sorted := f.sorted
  simp only [List.cons_append, List.pairwise_cons] at sorted
  obtain ⟨least, sorted⟩ := sorted
  have members {k : Nat} (mem : k ∈ arrived' ++ lost ++ waiting) :
      k ∈ i :: arrived' ++ lost ++ waiting := by
    simp only [List.cons_append]
    exact List.mem_cons_of_mem _ mem
  refine ⟨i, arrived', rfl, answers, ?_⟩
  exact
    { f with
      completions := others
      sorted := sorted
      below := fun k mem => f.below k (members mem)
      upward := fun opened j mem k le lt => by
        have there := f.upward opened j (members mem) k le lt
        simp only [List.cons_append, List.mem_cons] at there
        rcases there with rfl | there
        · rwa [← Nat.le_antisymm le (least j mem)]
        · exact there
      bound := fun opened => by
        have bound := f.bound opened
        rw [List.length_cons] at bound
        exact le_trans (by omega) bound
      near := fun k mem => f.near k (members mem)
      free := fun a mem => f.free a (by rw [first]; exact List.mem_cons_of_mem _ mem)
      past := fun a mem => by
        refine f.past a ?_
        rw [first]
        cases rest with
        | nil => contradiction
        | cons b rest => exact List.mem_cons_of_mem _ mem }

/-- Deliveries that are not too far apart have different numbers. -/
theorem number_inj {i k : Nat} (same : number i = number k) (le : i ≤ k) (near : k < i + 2 ^ 64) :
    i = k := by
  have numbers := congrArg UInt64.toNat same
  simp only [number, UInt64.toNat_ofNat'] at numbers
  omega

/-- The completion of the call's own delivery is accepted. -/
theorem accept (f : s.Flow arrived lost waiting) (waits : s.caller = .waiting d left) {time : Nat}
    {c : CompletionFrame} {rest : List (Nat × CompletionFrame)}
    (first : s.worker.completions = (time, c) :: rest) (own : c.delivery = d.delivery) :
    ∃ arrived', Flow { s with
      caller := .idle
      worker := { s.worker with completions := rest }.count
        fun n => { n with accepted := n.accepted + 1 }
      accepted := s.accepted ++ [(s.dispatched.length - 1, c)] } arrived' lost waiting := by
  obtain ⟨i, arrived', rfl, answers, taken⟩ :=
    f.take first fun n => { n with accepted := n.accepted + 1 }
  obtain ⟨latest, earlier⟩ := f.current d (by rw [waits]; rfl)
  have inside : i < s.dispatched.length := f.below i (by simp)
  -- the two queues are too short for a frame of an earlier delivery with the same number
  have same : i = s.dispatched.length - 1 := by
    obtain ⟨d', r, found, rfl⟩ := answers
    have dispatched : s.dispatched[i]? = some d' := f.dispatched_of_computed found
    rw [List.getLast?_eq_getElem?] at latest
    refine number_inj ?_ (Nat.le_sub_one_of_lt inside) ?_
    · rw [← f.numbered i d' dispatched, ← f.numbered _ d latest]
      exact own
    · have near := f.near i (by simp)
      have room : s.worker.room ≤ 2 ^ 58 := f.room
      omega
  refine ⟨arrived', ?_⟩
  exact
    { taken with
      bound := fun opened => by
        have bound := f.bound opened
        rw [waits, List.length_cons] at bound
        simp only [Caller.slack] at bound
        show arrived'.length + lost.length + waiting.length ≤ s.worker.room + 2
        omega
      next := fun opened => by
        have next := f.next opened
        rw [waits] at next
        exact next
      opens := fun _ _ same => Caller.noConfusion same
      current := fun _ same => absurd same.symm (Option.some_ne_none _)
      accepted := fun x mem => by
        rcases List.mem_append.mp mem with old | last
        · exact f.accepted x old
        · obtain rfl := List.mem_singleton.mp last
          exact ⟨same ▸ inside, same ▸ answers⟩
      distinct := by
        rw [List.map_append, List.map_singleton]
        refine List.nodup_append'.mpr ⟨f.distinct, List.nodup_singleton _, ?_⟩
        rw [List.disjoint_singleton]
        intro old
        obtain ⟨x, mem, place⟩ := List.mem_map.mp old
        have before := earlier x mem
        omega }

/-! ## steps of the worker -/

/-- The delivery that was computed last is remembered. -/
theorem exists_recalled (f : s.Flow arrived lost waiting) (alive : s.worker.closedAt = none) {i : Nat}
    (latest : i + 1 = s.computed.length) (found : s.dispatched[i]? = some d) :
    ∃ c, s.worker.remembered.find? (·.delivery == d.delivery) = some c ∧ s.Answers i c := by
  have inside : i < s.computed.length := by omega
  have there : s.computed[i]? = some s.computed[i] := List.getElem?_eq_getElem inside
  have same : s.computed[i].1 = d :=
    Option.some.inj ((f.dispatched_of_computed there).symm.trans found)
  have last : s.computed.reverse = s.computed[i] :: s.computed.dropLast.reverse := by
    have nonempty : s.computed ≠ [] := List.ne_nil_of_length_pos (by omega)
    have final : s.computed.getLast nonempty = s.computed[i] := by
      rw [List.getLast_eq_getElem]
      exact getElem_congr_idx (by omega)
    rw [← final, ← List.reverse_concat, List.dropLast_concat_getLast]
  have recalls := f.recalls alive
  rw [last, RemoteWorker.memory, List.take_succ_cons] at recalls
  obtain ⟨c, others, ⟨r, reply, rfl⟩, -, remembered⟩ := List.forall₂_cons_left_iff.mp recalls
  refine ⟨_, ?_, s.computed[i].1, r, ?_, rfl⟩
  · rw [remembered, List.find?_cons_of_pos]
    rw [same]
    exact beq_self_eq_true _
  · rw [there, ← reply]

/-- The next delivery is not remembered. -/
theorem not_remembers (f : s.Flow arrived lost waiting) (alive : s.worker.closedAt = none)
    (found : s.dispatched[s.computed.length]? = some d) : s.worker.remembers d = false := by
  rw [RemoteWorker.remembers, List.any_eq_false]
  intro c mem own
  obtain ⟨k, inside, rfl⟩ := List.getElem_of_mem mem
  have recalls := f.recalls alive
  have length := recalls.length_eq
  rw [List.length_take, List.length_reverse] at length
  have inside' : k < (s.computed.reverse.take RemoteWorker.memory).length := by
    rw [List.length_take, List.length_reverse]
    omega
  obtain ⟨r, -, same⟩ := List.Forall₂.get recalls inside' inside
  simp only [List.get_eq_getElem, List.getElem_take, List.getElem_reverse] at same
  have place : s.computed.length - 1 - k < s.computed.length := by omega
  have numbered := f.numbered _ _ (f.dispatched_of_computed (List.getElem?_eq_getElem place))
  rw [beq_iff_eq, same] at own
  have apart := number_inj (numbered.symm.trans (own.trans (f.numbered _ _ found))) (by omega)
    (by simp only [RemoteWorker.memory] at length; omega)
  omega

/-- The worker meets a copy of the delivery that it computed last, or the next one. -/
theorem place (f : s.Flow arrived lost waiting) (alive : s.worker.closedAt = none) {i : Nat}
    {others : List Nat} (first : waiting = i :: others) :
    i + 1 = s.computed.length ∨ i = s.computed.length := by
  subst first
  have recent := f.recent alive i List.mem_cons_self
  have inside := f.below i (by simp)
  rcases Nat.lt_or_ge i s.computed.length with before | after
  · exact .inl (by omega)
  · have sorted := (List.pairwise_append.mp f.sorted).2.1
    have next := f.covers alive s.computed.length (le_refl _) (by omega)
    rcases List.mem_cons.mp next with same | later
    · exact .inr same.symm
    · exact .inr (Nat.le_antisymm ((List.pairwise_cons.mp sorted).1 _ later) after)

section Served

variable {i start time sent : Nat} {others : List Nat} {rest : List (Nat × DispatchFrame)}
  (f : s.Flow arrived [] (i :: others)) (first : s.worker.requests = (sent, d) :: rest)
  (alive : s.worker.closedAt = none)

/-- The oldest request becomes the newest completion: what is on its way stays the same. -/
theorem moved (arrived others : List Nat) (i : Nat) :
    arrived ++ [i] ++ [] ++ others = arrived ++ [] ++ i :: others := by
  simp

include f first in
theorem request_first : s.dispatched[i]? = some d ∧
    List.Forall₂ (fun i r => s.dispatched[i]? = some r.2) others rest := by
  have requests := f.requests
  rw [first] at requests
  exact List.forall₂_cons.mp requests

include f first in
theorem space_rest : rest.length ≤ s.worker.room := by
  have space := f.space
  rw [first, List.length_cons] at space
  omega

include f in
theorem bound_moved (opened : s.Open) :
    (arrived ++ [i]).length + ([] : List Nat).length + others.length ≤
      s.worker.room + 2 + s.caller.slack := by
  have bound := f.bound opened
  simp only [List.length_cons, List.length_append, List.length_nil] at bound ⊢
  omega

include f in
/-- The worker is free by the time at which it answers. -/
theorem free_answer (free : s.worker.freeAt ≤ start) (later : start ≤ time) {c : CompletionFrame} :
    ∀ a ∈ s.worker.completions ++ [(time, c)], a.1 ≤ time := by
  intro a mem
  rcases List.mem_append.mp mem with old | last
  · exact (f.free a old).trans (free.trans later)
  · rw [List.mem_singleton.mp last]

include f in
/-- All answers but the last one have arrived. -/
theorem past_answer (free : s.worker.freeAt ≤ start) (now : start ≤ s.worker.clock)
    {c : CompletionFrame} :
    ∀ a ∈ (s.worker.completions ++ [(time, c)]).dropLast, a.1 ≤ s.worker.clock := by
  intro a mem
  rw [List.dropLast_concat] at mem
  exact (f.free a mem).trans (free.trans now)

include f first alive in
/-- A copy of the delivery that was computed last is answered from memory. -/
theorem recalled (latest : i + 1 = s.computed.length) {c : CompletionFrame}
    {counters : RemoteCounters} (answers : s.Answers i c) (free : s.worker.freeAt ≤ start)
    (now : start ≤ s.worker.clock) :
    Flow { s with
      worker :=
        { s.worker with
          requests := rest, counters, completions := s.worker.completions ++ [(start, c)]
          freeAt := start } } (arrived ++ [i]) [] others :=
  { f with
    requests := (f.request_first first).2
    completions := List.rel_append f.completions (.cons answers .nil)
    sorted := moved arrived others i ▸ f.sorted
    below := moved arrived others i ▸ f.below
    upward := moved arrived others i ▸ f.upward
    recent := fun here k mem => f.recent here k (List.mem_cons_of_mem _ mem)
    covers := fun here k le lt => by
      have apart : k ≠ i := by
        have le : s.computed.length ≤ k := le
        omega
      exact (List.mem_cons.mp (f.covers alive k le lt)).resolve_left apart
    lost_nil := fun _ => rfl
    space := f.space_rest first
    bound := f.bound_moved
    near := moved arrived others i ▸ f.near
    free := f.free_answer free le_rfl
    past := f.past_answer free now }

include f alive in
/-- What a request that is computed adds to the invariant, whether it is answered or not. -/
theorem computing (next : i = s.computed.length) (found : s.dispatched[i]? = some d)
    (r? : Option (Except String Ciphertext)) {calls : List PrimitiveCall}
    (called : calls = s.worker.calls ∨ calls = RemoteWorker.callOf d :: s.worker.calls) :
    (s.computed ++ [(d, r?)]).map (·.1) = s.dispatched.take (s.computed ++ [(d, r?)]).length ∧
      calls.reverse.Sublist ((s.computed ++ [(d, r?)]).map fun x => RemoteWorker.callOf x.1) ∧
      (∀ k ∈ others, (s.computed ++ [(d, r?)]).length ≤ k + 1) ∧
      ∀ k, (s.computed ++ [(d, r?)]).length ≤ k → k < s.dispatched.length → k ∈ others := by
  subst next
  have length : (s.computed ++ [(d, r?)]).length = s.computed.length + 1 := by simp
  rw [length]
  refine ⟨?_, ?_, fun k mem => ?_, fun k le lt => ?_⟩
  · rw [List.map_append, f.taken, List.take_add_one, found]
    rfl
  · rw [List.map_append, List.map_singleton]
    rcases called with rfl | rfl
    · exact f.calls.trans (List.sublist_append_left _ _)
    · rw [List.reverse_cons]
      exact f.calls.append (List.Sublist.refl _)
  · have sorted := (List.pairwise_append.mp f.sorted).2.1
    exact Nat.succ_le_succ ((List.pairwise_cons.mp sorted).1 k mem)
  · exact (List.mem_cons.mp (f.covers alive k (by omega) lt)).resolve_left (by omega)

include f first alive in
/-- The next delivery is computed and answered. -/
theorem answered (next : i = s.computed.length) {r : Except String Ciphertext} {keys : KeyCache}
    {calls : List PrimitiveCall} {counters : RemoteCounters} (free : s.worker.freeAt ≤ start)
    (now : start ≤ s.worker.clock) (later : start ≤ time)
    (called : calls = s.worker.calls ∨ calls = RemoteWorker.callOf d :: s.worker.calls) :
    Flow { s with
      worker :=
        { s.worker with
          requests := rest, keys, calls, counters
          completions := s.worker.completions ++ [(time, ⟨d.delivery, d.node, r⟩)]
          freeAt := time
          remembered := (⟨d.delivery, d.node, r⟩ :: s.worker.remembered).take RemoteWorker.memory }
      computed := s.computed ++ [(d, some r)] } (arrived ++ [i]) [] others := by
  obtain ⟨found, requests⟩ := f.request_first first
  obtain ⟨taken, calls', recent, covers⟩ := f.computing alive next found (some r) called
  exact
    { f with
      taken := taken
      calls := calls'
      requests := requests
      completions := by
        refine List.rel_append (f.completions.imp fun i a answers => answers.mono) (.cons ?_ .nil)
        refine ⟨d, r, ?_, rfl⟩
        rw [next]
        exact List.getElem?_concat_length
      sorted := moved arrived others i ▸ f.sorted
      below := moved arrived others i ▸ f.below
      upward := moved arrived others i ▸ f.upward
      recent := fun _ => recent
      covers := fun _ => covers
      recalls := fun _ => by
        have recalls : List.Forall₂ Recalls
            ((d, some r) :: s.computed.reverse.take RemoteWorker.memory)
            (⟨d.delivery, d.node, r⟩ :: s.worker.remembered) := .cons ⟨r, rfl, rfl⟩ (f.recalls alive)
        have cut := List.forall₂_take RemoteWorker.memory recalls
        simpa [RemoteWorker.memory, List.take_take] using cut
      lost_nil := fun _ => rfl
      space := f.space_rest first
      bound := f.bound_moved
      near := moved arrived others i ▸ f.near
      accepted := fun x mem => ⟨(f.accepted x mem).1, (f.accepted x mem).2.mono⟩
      free := f.free_answer free later
      past := f.past_answer free now }

include f first alive in
/-- The next delivery makes the worker crash. -/
theorem crashed (next : i = s.computed.length) {keys : KeyCache} :
    Flow { s with
      worker :=
        { s.worker with
          requests := rest, keys, calls := RemoteWorker.callOf d :: s.worker.calls
          closedAt := some time }
      computed := s.computed ++ [(d, none)] } arrived [i] others := by
  obtain ⟨found, requests⟩ := f.request_first first
  obtain ⟨taken, calls', -, -⟩ := f.computing alive next found none (.inr rfl)
  have opened : s.Open := by
    unfold Open RemoteWorker.closedBy
    rw [alive]
    rfl
  have same : arrived ++ [i] ++ others = arrived ++ [] ++ i :: others := by simp
  exact
    { f with
      taken := taken
      calls := calls'
      requests := requests
      completions := f.completions.imp fun i a answers => answers.mono
      sorted := same ▸ f.sorted
      below := same ▸ f.below
      upward := fun _ => same ▸ f.upward opened
      recent := nofun
      covers := nofun
      recalls := nofun
      lost_nil := nofun
      lost_le := le_rfl
      space := f.space_rest first
      bound := fun _ => by
        have bound := f.bound opened
        simp only [List.length_cons, List.length_nil] at bound ⊢
        show _ ≤ s.worker.room + 2 + s.caller.slack
        omega
      near := same ▸ f.near
      next := fun _ => f.next opened
      opens := fun _ => f.opens opened
      accepted := fun x mem => ⟨(f.accepted x mem).1, (f.accepted x mem).2.mono⟩ }

end Served

/-- The worker takes up a request. -/
theorem serve (f : s.Flow arrived lost waiting) {sent start : Nat}
    {rest : List (Nat × DispatchFrame)} (first : s.worker.requests = (sent, d) :: rest)
    (alive : s.worker.closedAt = none) (free : max s.worker.freeAt sent ≤ start)
    (now : start ≤ s.worker.clock) :
    ∃ arrived' lost' waiting', Flow { s with
      worker := { s.worker with requests := rest }.serve start d
      computed := s.computedAfter d } arrived' lost' waiting' := by
  obtain rfl := f.lost_nil alive
  have requests := f.requests
  rw [first] at requests
  obtain ⟨i, others, found, -, rfl⟩ := List.forall₂_cons_right_iff.mp requests
  have free := (le_max_left _ _).trans free
  have served := RemoteWorker.served { s.worker with requests := rest } start d
  rcases f.place alive rfl with latest | next
  · obtain ⟨c, there, answers⟩ := f.exists_recalled alive latest found
    have remembers : s.worker.remembers d = true := RemoteWorker.remembers_of_find? there
    rw [computedAfter, if_pos remembers]
    generalize { s.worker with requests := rest }.serve start d = w' at served ⊢
    cases served with
    | recalled found' =>
        obtain rfl := Option.some.inj (there.symm.trans found')
        exact ⟨_, _, _, f.recalled first alive latest answers free now⟩
    | answered fresh => exact absurd (remembers.symm.trans fresh) (by decide)
    | crashed fresh => exact absurd (remembers.symm.trans fresh) (by decide)
  · have fresh : s.worker.remembers d = false := f.not_remembers alive (next ▸ found)
    rw [computedAfter, if_neg (by simp [fresh])]
    generalize { s.worker with requests := rest }.serve start d = w' at served ⊢
    cases served with
    | recalled found' =>
        have remembers : s.worker.remembers d = true := RemoteWorker.remembers_of_find? found'
        rw [fresh] at remembers
        contradiction
    | answered _ reply later called =>
        rw [show s.worker.reply? d = _ from reply]
        exact ⟨_, _, _, f.answered first alive next free now later called⟩
    | crashed _ reply =>
        rw [show s.worker.reply? d = _ from reply]
        exact ⟨_, _, _, f.crashed first alive next⟩

/-! ## all steps -/

/-- Every step keeps the invariant. -/
theorem step {t : Link} (f : s.Flow arrived lost waiting) (h : s.Step t) :
    ∃ arrived' lost' waiting', t.Flow arrived' lost' waiting' := by
  cases h with
  | tick time => exact ⟨_, _, _, f.tick time⟩
  | «open» free numbered => exact ⟨_, _, _, f.opening free numbered⟩
  | dispatch ready alive space => exact ⟨_, _, _, f.dispatch ready alive space⟩
  | resend ready alive space => exact ⟨_, _, _, f.resend ready alive space⟩
  | refuse ready ended => exact ⟨_, _, _, f.ends (.inl ended)⟩
  | serve first alive free now => exact f.serve first alive free now
  | drop waits first other =>
      obtain ⟨i, arrived', -, -, taken⟩ := f.take first _
      exact ⟨_, _, _, taken⟩
  | accept waits first own =>
      obtain ⟨arrived', accepted⟩ := f.accept waits first own
      exact ⟨_, _, _, accepted⟩
  | expire waits quiet => exact ⟨_, _, _, f.expire waits quiet⟩
  | giveUp waits quiet => exact ⟨_, _, _, f.ends (.inr ⟨quiet, by rw [waits]; rfl⟩)⟩
  | hangUp waits ended quiet => exact ⟨_, _, _, f.ends (.inl ended)⟩
  | close settled => exact ⟨_, _, _, f.close settled⟩

/-- Nothing is on its way on a fresh link. -/
theorem start {w : RemoteWorker} {index : Nat} {name : String} {options : RemoteOptions}
    (h : RemoteWorker.start? index name options = some w) : (Link.start w).Flow [] [] [] := by
  unfold RemoteWorker.start? at h
  split at h
  · next starts =>
      obtain rfl := Option.some.inj h
      have capacity : options.channelCapacity < queueLimit := by
        simp only [RemoteWorker.canStart, Bool.and_eq_true, decide_eq_true_eq] at starts
        exact starts.2
      have positive : 1 ≤ queueLimit := by decide
      exact
        { room := max_le capacity.le positive
          numbered := by simp [Link.start]
          taken := rfl
          calls := .slnil
          requests := .nil
          completions := .nil
          sorted := .nil
          below := nofun
          upward := fun _ => nofun
          recent := fun _ => nofun
          covers := fun _ k _ lt => absurd lt (Nat.not_lt_zero k)
          recalls := fun _ => .nil
          lost_nil := fun _ => rfl
          lost_le := Nat.zero_le _
          space := Nat.zero_le _
          bound := fun _ => Nat.zero_le _
          near := nofun
          next := fun _ => rfl
          opens := fun _ _ same => Caller.noConfusion same
          current := fun _ same => absurd same.symm (Option.some_ne_none _)
          accepted := nofun
          distinct := List.nodup_nil
          free := nofun
          past := nofun }
  · contradiction

end Flow

/-- Every interleaving keeps the invariant. -/
theorem Reaches.flow {s t : Link} (h : s.Reaches t)
    (f : ∃ arrived lost waiting, s.Flow arrived lost waiting) :
    ∃ arrived lost waiting, t.Flow arrived lost waiting := by
  induction h with
  | refl => exact f
  | step _ last ih =>
      obtain ⟨arrived, lost, waiting, flow⟩ := ih
      exact flow.step last

end Link

end HomCircuit
