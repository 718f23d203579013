import HomCircuit.Proofs.Schedule.Buffers
import HomCircuit.Proofs.Schedule.Origins

/-!
# HomCircuit.Proofs.Schedule.Recount

The history of a call tells what every result was made of.

```
arguments  →  stored  →  read by a node  →  made of what was read  →  stored  →  …
```

While nodes run, others free what they hold on devices, devices fail, and links are slow. What was put in
a slot keeps its words all the same: whoever reads them, at any later time and from any place, reads these
or none.

* `History.Feeds`, `Performed.Made` — what a node was fed with, and how its result was made of it;
* `Chronicle.Recounts` — what is known of a call and its history, kept by every section of a worker;
* `Plan.recounts` — so is it known of every call, however its workers take turns;
* `Chronicle.Recounts.exists_content` — each slot has one content, of which all results were made.
-/

namespace HomCircuit

/-! ## what stays in a history -/

namespace History

variable {p : Plan} {begun : Run} {es es' : History} {slot : Nat} {b : Buffer}

/-- A node that gave a result somewhere. -/
theorem exists_settled {i : Nat} {place : Placement}
    (there : (i, true, place) ∈
      es.settled.map fun s => (s.1, s.2.result.isOk, s.2.record.placement)) :
    ∃ done out, .settled i done ∈ es ∧ done.result = .ok out ∧ done.record.placement = place := by
  obtain ⟨⟨j, done⟩, settled, same⟩ := List.mem_map.mp there
  obtain ⟨rfl, rest⟩ := Prod.mk.inj same
  obtain ⟨ok, placed⟩ := Prod.mk.inj rest
  exact ⟨done, _, mem_settled.mp settled, Except.eq_ok_of_isOk ok, placed⟩

/-- What happened before the failure, when more has happened. -/
theorem before_append (es es' : History) :
    ∃ more, more ⊆ es' ∧ before (es ++ es') = es.before ++ more := by
  cases failed : es.failure? with
  | none =>
      refine ⟨before es', (List.takeWhile_prefix _).subset, ?_⟩
      rw [before_append_of_healthy failed, before_of_healthy failed]
  | some f =>
      refine ⟨[], List.nil_subset _, ?_⟩
      rw [(split_append_of_failed failed es').1, List.append_nil]

/-- What was put in a slot stays what was put there. -/
theorem stored?_append (h : es.stored? p begun slot = some b) (es' : History) :
    stored? (es ++ es') p begun slot = some b := by
  obtain ⟨more, -, same⟩ := before_append es es'
  unfold stored? at h ⊢
  rw [same, results_append]
  cases produced : p.graph.producer? slot with
  | none =>
      rw [produced] at h
      exact h
  | some i =>
      rw [produced] at h
      have found : es.before.results.lookup i = some b := h
      exact List.lookup_append.trans (by rw [found]; rfl)

/-- What is new in a slot is the result of a node that was settled. -/
theorem stored?_append_cases (h : stored? (es ++ es') p begun slot = some b) :
    es.stored? p begun slot = some b ∨
      ∃ i done, (i, done) ∈ es'.settled ∧ done.result = .ok b := by
  obtain ⟨more, sub, same⟩ := before_append es es'
  unfold stored? at h ⊢
  rw [same, results_append] at h
  cases produced : p.graph.producer? slot with
  | none =>
      rw [produced] at h
      exact .inl h
  | some i =>
      rw [produced] at h
      rcases Option.or_eq_some_iff.mp (List.lookup_append.symm.trans h) with old | ⟨-, new⟩
      · exact .inl old
      · right
        obtain ⟨front, back, split, -⟩ := List.lookup_eq_some_iff.mp new
        have mem : (i, b) ∈ results more := by simp [split]
        obtain ⟨⟨j, done⟩, settled, result⟩ := List.mem_filterMap.mp mem
        obtain ⟨made, ok, same⟩ := Option.map_eq_some_iff.mp result
        obtain ⟨rfl, rfl⟩ := Prod.mk.inj same
        exact ⟨j, done, mem_settled.mpr (sub (mem_settled.mp settled)), Except.eq_ok_of_toOption ok⟩

end History

/-! ## how results were made -/

/-- A node was fed with buffers that were put in the slots of its inputs. -/
structure History.Fed (es : History) (p : Plan) (begun : Run) (i : Nat) (inputs : List Shelved) :
    Prop where
  slots : inputs.map Shelved.slot = p.graph.inputsOf i
  stored : ∀ x ∈ inputs, es.stored? p begun x.slot = some x.buffer

/-- A node was fed with such buffers, and with their words. -/
structure History.Feeds (es : History) (p : Plan) (begun : Run) (known : List Deposit) (i : Nat)
    (inputs : List Shelved) (words : List Ciphertext) : Prop extends es.Fed p begun i inputs where
  reads : List.Forall₂ (fun x w => x.buffer.Reads known w) inputs words

/-- If a node gave a buffer, its ciphertext was made as told of what the node was fed with. -/
def Performed.MadeOf (e : Environment) (p : Plan) (asked : Partition → Prop)
    (handed : Partition → KeySet → Prop) (begun : Run) (known : List Deposit) (i : Nat)
    (inputs : List Shelved) (words : List Ciphertext) (done : Performed) : Prop :=
  ∀ b, done.result = .ok b → ∃ ct, b.Reads known ct ∧
    (p.graph.node i).Ran e begun.resources asked handed words (hostWords (inputs.map Shelved.buffer))
      done.record.placement ct

/-- A node was fed from the slots of its inputs, and its result made of that. -/
def Performed.Made (e : Environment) (p : Plan) (asked : Partition → Prop)
    (handed : Partition → KeySet → Prop) (begun : Run) (es : History) (known : List Deposit)
    (i : Nat) (done : Performed) : Prop :=
  ∃ inputs words, es.Feeds p begun known i inputs words ∧
    done.MadeOf e p asked handed begun known i inputs words

section Mono

variable {e : Environment} {p : Plan} {asked : Partition → Prop}
  {handed : Partition → KeySet → Prop} {begun : Run}
  {es : History} {known known' : List Deposit} {i : Nat} {inputs : List Shelved}
  {words : List Ciphertext} {done : Performed}

theorem History.Fed.append (h : es.Fed p begun i inputs) (es' : History) :
    (es ++ es').Fed p begun i inputs where
  slots := h.slots
  stored x mem := History.stored?_append (h.stored x mem) es'

theorem History.Feeds.mono (h : es.Feeds p begun known i inputs words) (more : known ⊆ known')
    (es' : History) : (es ++ es').Feeds p begun known' i inputs words where
  toFed := h.toFed.append es'
  reads := h.reads.imp fun _ _ reads => reads.mono more

theorem Performed.MadeOf.mono (h : done.MadeOf e p asked handed begun known i inputs words)
    (more : known ⊆ known') : done.MadeOf e p asked handed begun known' i inputs words := by
  intro b ok
  obtain ⟨ct, reads, ran⟩ := h b ok
  exact ⟨ct, reads.mono more, ran⟩

theorem Performed.Made.mono (h : done.Made e p asked handed begun es known i) (more : known ⊆ known')
    (es' : History) : done.Made e p asked handed begun (es ++ es') known' i := by
  obtain ⟨inputs, words, feeds, made⟩ := h
  exact ⟨inputs, words, feeds.mono more es', made.mono more⟩

end Mono

/-! ## workers -/

/-- What is known of a worker: while its node runs, what it was fed with and that its result will be made
of that; and then, that it was. -/
def Station.Recounts (e : Environment) (p : Plan) (asked : Partition → Prop)
    (handed : Partition → KeySet → Prop) (begun : Run) (es : History) (known : List Deposit) :
    Station → Prop
  | .performing i job => ∃ inputs words base own,
      es.Feeds p begun base i inputs words ∧ own ++ base ⊆ known ∧
        job.Tracks (fun own => Run.Finds e asked handed begun.resources inputs (own ++ base))
          (Run.Learns asked begun.resources base)
          (fun own done => done.MadeOf e p asked handed begun (own ++ base) i inputs words) own
  | .retiring i _ done => done.Made e p asked handed begun es known i
  | _ => True

/-- What a section of a worker leads to: more may be known, and what was known still is. -/
structure Station.Tells (e : Environment) (p : Plan) (asked : Partition → Prop)
    (handed : Partition → KeySet → Prop) (begun : Run) (es : History) (known : List Deposit)
    (after : Run × Station × History) : Prop where
  follows : begun.resources.Follows asked known after.1.resources
  at_ : after.2.1.Recounts e p asked handed begun (es ++ after.2.2) known
  settled : ∀ s ∈ after.2.2.settled, s.2.Made e p asked handed begun (es ++ after.2.2) known s.1

/-- What is known of a call and its history. -/
structure Chronicle.Recounts (e : Environment) (p : Plan) (asked : Partition → Prop)
    (handed : Partition → KeySet → Prop) (begun : Run) (c : Chronicle) (known : List Deposit) :
    Prop where
  follows : begun.resources.Follows asked known c.run.resources
  stored : ∀ slot b, c.history.stored? p begun slot = some b → ∃ w, b.Reads known w
  at_ : ∀ s ∈ c.stations, s.Recounts e p asked handed begun c.history known
  settled : ∀ s ∈ c.history.settled, s.2.Made e p asked handed begun c.history known s.1

section Move

variable {e : Environment} {p : Plan} {asked : Partition → Prop}
  {handed : Partition → KeySet → Prop} {begun r : Run}
  {es es' : History} {known known' : List Deposit} {i : Nat}

theorem Station.Recounts.mono {s : Station} (h : s.Recounts e p asked handed begun es known)
    (more : known ⊆ known') (es' : History) :
    s.Recounts e p asked handed begun (es ++ es') known' := by
  cases s with
  | performing i job =>
      obtain ⟨inputs, words, base, own, feeds, sub, tracks⟩ := h
      exact ⟨inputs, words, base, own, feeds.mono (List.Subset.refl _) es',
        List.Subset.trans sub more, tracks⟩
  | retiring i owed done => exact Performed.Made.mono h more es'
  | _ => trivial

/-- A worker that retires a node ends a read, or settles the node as it was made. -/
theorem Station.tells_retire {done : Performed} (made : done.Made e p asked handed begun es known i)
    (follows : begun.resources.Follows asked known r.resources) (owed : List Nat) :
    Station.Tells e p asked handed begun es known (Station.retire p r i done owed) := by
  have kept (es' : History) : done.Made e p asked handed begun (es ++ es') known i :=
    made.mono (List.Subset.refl _) es'
  cases owed with
  | cons slot rest =>
      exact ⟨follows.drop _, kept _, by simp [Station.retire, History.settled, Event.settlement?]⟩
  | nil =>
      refine ⟨?_, trivial, ?_⟩
      · simp only [Station.retire, Run.complete]
        cases done.result with
        | error err => exact follows
        | ok b =>
            dsimp only
            split <;> exact follows.drop _
      · simpa [Station.retire, History.settled, Event.settlement?] using kept [.settled i done]

/-- A worker that is not running a node learns nothing of it. -/
theorem Station.Tells.silent {s : Station} {r' : Run}
    (follows : begun.resources.Follows asked known r'.resources)
    (at_ : s.Recounts e p asked handed begun es known) :
    Station.Tells e p asked handed begun es known (r', s, []) where
  follows := follows
  at_ := by simpa using at_
  settled := nofun

/-- What a node in hand reads is what was put in the slots of its inputs. -/
theorem Course.finds (sound : p.Sound) (h : begun.Begun p) {hands owed : List Nat}
    (course : Course p begun r es hands owed) (held : i ∈ hands)
    (reads : ∀ slot ∈ p.graph.inputsOf i, slot ∈ owed) :
    ∀ slot ∈ p.graph.inputsOf i, ∃ b,
      r.arena.get? slot = some b ∧ es.stored? p begun slot = some b := by
  intro slot read
  obtain ⟨b, found⟩ := Option.isSome_iff_exists.mp (course.furnished sound h held reads slot read)
  have left : slot ∈ p.readsLeft r.dispatch.started owed :=
    List.mem_append_left _ (List.mem_append_right _ (reads slot read))
  exact ⟨b, found, ((course.shelves sound h).get?_eq left).2.symm.trans found⟩

/-- A node whose inputs were put in their slots is fed with them. -/
theorem History.exists_feeds
    (stored : ∀ slot ∈ p.graph.inputsOf i, ∃ b w, es.stored? p begun slot = some b ∧ b.Reads known w) :
    ∃ inputs words, es.Feeds p begun known i inputs words := by
  choose! buffer words stored reads using stored
  refine ⟨(p.graph.inputsOf i).map fun slot => ⟨slot, buffer slot, []⟩,
    (p.graph.inputsOf i).map words, ⟨?_, ?_⟩, ?_⟩
  · rw [List.map_map]
    exact List.map_id _
  · intro x mem
    obtain ⟨slot, read, rfl⟩ := List.mem_map.mp mem
    exact stored slot read
  · rw [List.forall₂_map_left_iff, List.forall₂_map_right_iff, List.forall₂_same]
    exact reads

/-- A section of a worker takes nothing from what is known, and may add to it. -/
theorem Station.Recounts.move (sound : p.Sound) (h : begun.Begun p) (encrypts : e.mode ≠ .simulation)
    (covers : e.Within asked) {s : Station} (here : s.Recounts e p asked handed begun es known)
    (follows : begun.resources.Follows asked known r.resources)
    (stored : ∀ slot b, es.stored? p begun slot = some b → ∃ w, b.Reads known w)
    (hands : ∀ q shared, (r.resources.keys.getOrCreate q e.seed).1 = .ok shared →
      handed q shared.keys)
    {held owed : List Nat} (course : Course p begun r es held owed) (mine : s.hands ⊆ held)
    (due : s.owed p.graph ⊆ owed) :
    ∃ known', known ⊆ known' ∧ Station.Tells e p asked handed begun es known' (s.move e p r) := by
  have same : known ⊆ known := List.Subset.refl known
  match s, here with
  | .gone, here => exact ⟨known, same, .silent follows here⟩
  | .leaving i, here => exact ⟨known, same, .silent follows trivial⟩
  | .retiring i reads done, here => exact ⟨known, same, tells_retire here follows reads⟩
  | .performing i (.done done), here =>
      obtain ⟨inputs, words, base, own, feeds, sub, made⟩ := here
      refine ⟨known, same, tells_retire ⟨inputs, words, ?_, ?_⟩ follows _⟩
      · simpa using feeds.mono (List.Subset.trans (List.subset_append_right own base) sub) []
      · exact Performed.MadeOf.mono made sub
  | .performing i (.await ready next), here =>
      refine ⟨known, same, .silent follows ?_⟩
      obtain ⟨inputs, words, base, own, feeds, sub, tracks⟩ := here
      exact ⟨inputs, words, base, own, feeds, sub, by split <;> exact tracks⟩
  | .performing i (.announce calls next), here =>
      exact ⟨known, same, .silent (follows.announce e.primitives calls) here⟩
  | .performing i (.step act next), here =>
      obtain ⟨inputs, words, base, own, feeds, sub, tracks⟩ := here
      have finds : Run.Finds e asked handed begun.resources inputs (own ++ base) r := by
        refine ⟨follows.mono sub, hands, fun x mem => ?_⟩
        have read : x.slot ∈ p.graph.inputsOf i := feeds.slots ▸ List.mem_map.mpr ⟨x, mem, rfl⟩
        obtain ⟨b, found, put⟩ := course.finds sound h (mine (List.mem_singleton_self i))
          (fun slot read => due read) x.slot read
        have fed := History.stored?_append (feeds.stored x mem) []
        rw [List.append_nil, put] at fed
        rw [found, fed]
      obtain ⟨own', learns, next'⟩ := tracks r finds
      obtain ⟨known', more, sub', follows'⟩ := learns known sub follows
      exact ⟨known', more, .silent follows' ⟨inputs, words, base, own', feeds, sub', next'⟩⟩
  | .idle, here =>
      have resources : (r.next e p).2.resources = r.resources := by
        simp only [Run.next]
        split <;> rfl
      cases told : r.next e p with
      | mk turn r' =>
          rw [told] at resources
          have follows' : begun.resources.Follows asked known r'.resources := resources ▸ follows
          simp only [Station.move, told]
          cases turn with
          | wait => exact ⟨known, same, .silent follows' trivial⟩
          | stop =>
              refine ⟨known, same, follows', trivial, ?_⟩
              dsimp only
              split <;> simp [History.settled, Event.settlement?]
          | start i =>
              obtain ⟨d', healthy, found, rfl⟩ := Run.next_start told
              have started := course.start healthy found
              have finds := started.finds sound h List.mem_cons_self
                fun slot read => List.mem_append_left _ read
              have fed : ∃ inputs words,
                  History.Feeds (es ++ [.started i]) p begun known i inputs words := by
                refine History.exists_feeds fun slot read => ?_
                obtain ⟨b, -, put⟩ := finds slot read
                have before : es.stored? p begun slot = some b :=
                  (History.stored?_snoc rfl).symm.trans put
                obtain ⟨w, reads⟩ := stored slot b before
                exact ⟨b, w, put, reads⟩
              obtain ⟨inputs, words, feeds⟩ := fed
              refine ⟨known, same, follows', ?_, by simp [History.settled, Event.settlement?]⟩
              exact ⟨inputs, words, known, known, feeds, List.append_subset.mpr ⟨same, same⟩,
                learns_perform encrypts covers feeds.slots feeds.reads⟩

end Move

/-! ## every interleaving -/

namespace Chronicle.Recounts

variable {e : Environment} {p : Plan} {asked : Partition → Prop}
  {handed : Partition → KeySet → Prop} {begun : Run}
  {c : Chronicle} {known : List Deposit}

/-- Before anything has happened, the arguments are there. -/
theorem initial (order : begun.resources.InOrder asked)
    (encrypted : ∀ slot b, begun.arena.get? slot = some b → ∃ w, b.payload = .host (.ciphertext w))
    (workers : Nat) : (Chronicle.initial begun workers).Recounts e p asked handed begun [] where
  follows := order.follows
  stored slot b found := by
    have nothing : History.before [] = [] := rfl
    have none_ (i : Nat) : (History.results []).lookup i = (none : Option Buffer) := rfl
    simp only [Chronicle.initial, History.stored?, nothing, none_] at found
    split at found
    · obtain ⟨w, host⟩ := encrypted slot b found
      exact ⟨w, Buffer.reads_host host⟩
    · contradiction
  at_ s mem := by
    rw [(List.mem_replicate.mp mem).2]
    exact trivial
  settled := nofun

/-- A section of a worker concerns its own node alone. -/
theorem worker (sound : p.Sound) (h : begun.Begun p) (encrypts : e.mode ≠ .simulation)
    (covers : e.Within asked) (valid : c.Valid p begun)
    (recounts : c.Recounts e p asked handed begun known)
    (hands : ∀ q shared, (c.run.resources.keys.getOrCreate q e.seed).1 = .ok shared →
      handed q shared.keys) (k : Nat) :
    ∃ known', known ⊆ known' ∧ (c.move e p (.worker k)).Recounts e p asked handed begun known' := by
  simp only [Chronicle.move]
  cases found : c.stations[k]? with
  | none => exact ⟨known, List.Subset.refl _, recounts⟩
  | some s =>
      have mem := List.mem_of_getElem? found
      obtain ⟨posts, m⟩ := valid
      obtain ⟨known', more, follows, at_, settled⟩ := (recounts.at_ s mem).move sound h encrypts covers
        recounts.follows recounts.stored hands m.course
        (fun i held => List.mem_flatMap.mpr ⟨s, mem, held⟩)
        fun slot due => List.mem_flatMap.mpr ⟨s, mem, due⟩
      have made : ∀ x ∈ (c.history ++ (s.move e p c.run).2.2).settled,
          x.2.Made e p asked handed begun (c.history ++ (s.move e p c.run).2.2) known' x.1 := by
        intro x there
        rw [History.settled_append] at there
        rcases List.mem_append.mp there with old | new
        · exact (recounts.settled x old).mono more _
        · exact settled x new
      refine ⟨known', more, follows, fun slot b put => ?_, fun t there => ?_, made⟩
      · rcases History.stored?_append_cases put with old | ⟨i, done, new, ok⟩
        · obtain ⟨w, reads⟩ := recounts.stored slot b old
          exact ⟨w, reads.mono more⟩
        · obtain ⟨inputs, words, -, made⟩ := settled (i, done) new
          obtain ⟨ct, reads, -⟩ := made b ok
          exact ⟨ct, reads⟩
      · rcases List.mem_or_eq_of_mem_set there with old | rfl
        · exact (recounts.at_ t old).mono more _
        · exact at_

/-- Nothing that is known depends on cancellations. -/
theorem cancel (recounts : c.Recounts e p asked handed begun known) (f : Cancellation → Cancellation) :
    (c.cancel f).Recounts e p asked handed begun known :=
  { recounts with follows := ⟨recounts.follows.devices, recounts.follows.remotes⟩ }

/-- However workers take turns, the history tells what the results were made of. -/
theorem moves (sound : p.Sound) (h : begun.Begun p) (encrypts : e.mode ≠ .simulation)
    (covers : e.Within asked) (valid : c.Valid p begun)
    (recounts : c.Recounts e p asked handed begun known) (ms : List Move)
    (hands : ∀ before, before <+: ms → ∀ q shared,
      ((c.moves e p before).run.resources.keys.getOrCreate q e.seed).1 = .ok shared →
        handed q shared.keys) :
    ∃ known', (c.moves e p ms).Recounts e p asked handed begun known' := by
  induction ms generalizing c known with
  | nil => exact ⟨known, recounts⟩
  | cons m rest ih =>
      have later : ∀ before, before <+: rest → ∀ q shared,
          (((c.move e p m).moves e p before).run.resources.keys.getOrCreate q e.seed).1 = .ok shared →
            handed q shared.keys :=
        fun before early => hands (m :: before) (List.cons_prefix_cons.mpr ⟨rfl, early⟩)
      cases m with
      | worker k =>
          obtain ⟨known', -, recounts'⟩ := recounts.worker sound h encrypts covers valid
            (hands [] List.nil_prefix) k
          exact ih (valid.worker sound h k) recounts' later
      | raise t => exact ih (valid.cancel _) (recounts.cancel _) later
      | cancelInFlight => exact ih (valid.cancel _) (recounts.cancel _) later

end Chronicle.Recounts

/-! ## calls -/

/-- Where a context encrypts, arguments are ciphertexts. -/
theorem Run.argument_encrypts {e : Environment} (encrypts : e.mode ≠ .simulation)
    {supplied : List (ValueId × Value)} {value : ValueId} {partition : PartitionId} {b : Buffer}
    (h : Run.argument e supplied value partition = .ok b) :
    ∃ w, b.payload = .host (.ciphertext w) := by
  obtain ⟨v, q, x, -, -, made, rfl⟩ := Run.exists_of_argument h
  suffices ∃ w, x = .ciphertext w by
    obtain ⟨w, rfl⟩ := this
    exact ⟨w, rfl⟩
  cases mode : e.mode with
  | simulation => exact absurd mode encrypts
  | _ =>
      rw [mode] at made
      cases v with
      | cleartext number => exact ⟨_, (Except.ok.inj made).symm⟩
      | simulated s => contradiction
      | ciphertext words =>
          simp only [Run.representation] at made
          split at made
          · contradiction
          · exact ⟨_, (Except.ok.inj made).symm⟩

/-- What is in place when a call begins are its arguments. -/
theorem Run.exists_argument {e : Environment} {p : Plan} {supplied : List (ValueId × Value)}
    {resources : Resources} {run : Run} (sound : p.Sound)
    (bound : Run.bind e p supplied p.graph.arguments.toList (Run.initial p resources) =
      (.ok (), run)) {slot : Nat} {b : Buffer} (found : run.arena.get? slot = some b) :
    ∃ v id x, p.graph.arguments[slot]? = some (v, id) ∧ b.payload = .host x ∧
      Run.argument e supplied v id = .ok (.ofHost v id x) := by
  have admits : Stock.Admits e p supplied fun k x => ∃ v id,
      p.graph.arguments[k]? = some (v, id) ∧ Run.argument e supplied v id = .ok (.ofHost v id x) := by
    intro k v id b known _ argument
    obtain ⟨-, -, x, -, -, -, rfl⟩ := Run.exists_of_argument argument
    exact ⟨x, rfl, v, id, known, argument⟩
  obtain ⟨⟨shelf, stock, hosts⟩, -⟩ :=
    Stock.bind sound.wired sound.reads_lt p.consumers_eq_readsLeft admits bound
  obtain ⟨x, mem, rfl⟩ := List.mem_map.mp (stock.only slot b found)
  obtain rfl := Option.some.inj ((stock.found x mem).symm.trans found)
  obtain ⟨value, stands, v, id, known, argument⟩ := (stock.fits x mem).stands
  have nothing : x.deposits = [] := List.flatMap_eq_nil_iff.mp hosts x mem
  rw [nothing] at stands
  exact ⟨v, id, value, known, stands.eq_host, argument⟩

/-- The arguments of a call are ciphertexts on the host. -/
def Run.Hosted (begun : Run) : Prop :=
  ∀ slot b, begun.arena.get? slot = some b → ∃ w, b.payload = .host (.ciphertext w)

/-- Where a context encrypts, they are. -/
theorem Run.hosted {e : Environment} {p : Plan} {supplied : List (ValueId × Value)}
    {resources : Resources} {run : Run} (sound : p.Sound)
    (encrypts : e.mode ≠ .simulation)
    (bound : Run.bind e p supplied p.graph.arguments.toList (Run.initial p resources) =
      (.ok (), run)) : run.Hosted := by
  intro slot b found
  obtain ⟨v, id, x, -, host, argument⟩ := Run.exists_argument sound bound found
  obtain ⟨w, same⟩ := Run.argument_encrypts encrypts argument
  exact ⟨w, host.trans same⟩

/-- When all workers of a call are gone, it may return. -/
theorem Plan.MayReturn.of_chronicle {e : Environment} {p : Plan}
    {supplied : List (ValueId × Value)} {resources : Resources} {run : Run}
    (bound : Run.bind e p supplied p.graph.arguments.toList (Run.initial p resources) =
      (.ok (), run)) {workers : Nat} {ms : List Move}
    (gone : ((p.chronicle e run workers ms).crew p).allGone = true) :
    p.MayReturn e workers supplied resources
      ((p.chronicle e run workers ms).run.finish p (.ok ())) := by
  have crew := p.crew_chronicle e run workers ms
  have same : (p.chronicle e run workers ms).run = ((Plan.crew run workers).moves e p ms).run := by
    rw [← crew, Chronicle.crew]
  rw [same]
  exact .finished ms bound (crew ▸ gone)

/-- A key set that the key manager of a context hands out at some moment of a call. -/
def Plan.Handed (p : Plan) (e : Environment) (run : Run) (workers : Nat) (ms : List Move)
    (q : Partition) (k : KeySet) : Prop :=
  ∃ before, before <+: ms ∧ ∃ shared,
    ((p.chronicle e run workers before).run.resources.keys.getOrCreate q e.seed).1 = .ok shared ∧
      shared.keys = k

/-- The history of a call tells what the results were made of, with keys that were handed out in the
call. -/
theorem Plan.recounts {e : Environment} {p : Plan} {asked : Partition → Prop} (sound : p.Sound)
    (encrypts : e.mode ≠ .simulation) (covers : e.Within asked)
    {supplied : List (ValueId × Value)} {resources : Resources} {run : Run}
    (order : resources.InOrder asked)
    (bound : Run.bind e p supplied p.graph.arguments.toList (Run.initial p resources) =
      (.ok (), run)) (workers : Nat) (ms : List Move) :
    ∃ known,
      (p.chronicle e run workers ms).Recounts e p asked (p.Handed e run workers ms) run known := by
  obtain ⟨begun, same⟩ := Run.begun_of_bind sound bound
  refine (Chronicle.Recounts.initial (same ▸ order) (Run.hosted sound encrypts bound) _).moves sound
    begun encrypts covers (.initial _) ms fun before early q shared answered => ?_
  exact ⟨before, early, shared, answered, rfl⟩

/-! ## contents -/

namespace Chronicle.Recounts

variable {e : Environment} {p : Plan} {asked : Partition → Prop}
  {handed : Partition → KeySet → Prop} {begun : Run}
  {c : Chronicle} {known : List Deposit}

/-- Each slot has one content, and each result was made of the contents of the slots that its node
reads. -/
theorem exists_content (recounts : c.Recounts e p asked handed begun known) :
    ∃ content : Nat → Ciphertext,
      (∀ slot b, c.history.stored? p begun slot = some b → b.Reads known (content slot)) ∧
      ∀ s ∈ c.history.settled, ∀ b, s.2.result = .ok b →
        (∀ slot ∈ p.graph.inputsOf s.1, (c.history.stored? p begun slot).isSome = true) ∧
        ∃ ct, b.Reads known ct ∧
          (p.graph.node s.1).Ran e begun.resources asked handed ((p.graph.inputsOf s.1).map content)
            (hostWords ((p.graph.inputsOf s.1).filterMap (c.history.stored? p begun)))
            s.2.record.placement ct := by
  have each (slot : Nat) : ∃ w, ∀ b, c.history.stored? p begun slot = some b → b.Reads known w := by
    cases found : c.history.stored? p begun slot with
    | none => exact ⟨[], nofun⟩
    | some b =>
        obtain ⟨w, reads⟩ := recounts.stored slot b found
        exact ⟨w, fun b' same => Option.some.inj same ▸ reads⟩
  choose content reads using each
  refine ⟨content, reads, fun s mem b ok => ?_⟩
  obtain ⟨inputs, words, feeds, made⟩ := recounts.settled s mem
  obtain ⟨ct, here, ran⟩ := made b ok
  refine ⟨fun slot read => ?_, ct, here, ?_⟩
  · obtain ⟨x, mem, rfl⟩ := List.mem_map.mp (feeds.slots ▸ read)
    rw [feeds.stored x mem]
    rfl
  have contents : words = (p.graph.inputsOf s.1).map content := by
    rw [← feeds.slots, List.map_map, ← List.forall₂_eq_eq_eq, List.forall₂_map_right_iff]
    refine List.Forall₂.flip (((List.forall₂_and_left _ _).mpr ⟨feeds.stored, feeds.reads⟩).imp ?_)
    rintro x w ⟨stored, has⟩
    exact has.unique recounts.follows.devices (reads x.slot x.buffer stored)
  have buffers : inputs.map Shelved.buffer =
      (p.graph.inputsOf s.1).filterMap (c.history.stored? p begun) := by
    rw [← feeds.slots, List.filterMap_map, ← List.filterMap_eq_map]
    exact (List.filterMap_congr fun x mem => feeds.stored x mem).symm
  rw [← contents, ← buffers]
  exact ran

end Chronicle.Recounts

end HomCircuit
