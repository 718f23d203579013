import HomCircuit.Proofs.Key.Collision

/-!
# HomCircuit.Proofs.Key.Flights

A key manager that any number of callers share. The sections of their calls come in any order, and
a generation runs between the two sections of a request that missed.

```
request  →  hit                                      answered
         →  wait                waiting  →  receive  waited
         →  miss    generating  →  generate  publishing  →  publish  generated
```

* `KeyManager.step`, `KeyManager.run` — one section, and any order of them;
* `KeyManager.Sound` — what holds in every run: a flight has one generator, and whoever waits for
  it receives what that generator gave;
* `KeyManager.Guarded` — what holds while no import displaces an open flight: every generation
  still has its flight, so that no second one of the same identity can start.
-/

namespace HomCircuit

/-! ## callers -/

/-- What a caller wants of the key set of a partition and seed. -/
structure KeyRequest where
  partition : Partition
  seed : KeySeed
  /-- Whether a blob is wanted in place of the keys. -/
  exported : Bool := false
  deriving DecidableEq

/-- What a call gives back. -/
inductive KeyAnswer
  | keys (result : Except KeyError SharedKeys)
  | blob (result : Except KeyError KeyBlob)
  | dropped (count : Nat)
  deriving DecidableEq

namespace KeyRequest

/-- What is looked for. -/
def id (r : KeyRequest) : KeyId := KeyId.of r.partition r.seed

/-- What a result is turned into. -/
def answer (r : KeyRequest) (result : Except KeyError SharedKeys) : KeyAnswer :=
  if r.exported then .blob (result.map fun shared => KeyBlob.ofKeySet shared.keys) else .keys result

/-- What the generator gives; a panic counts as a refusal. -/
def generation (r : KeyRequest) (panics : Bool) : Except KeyError KeySet :=
  if panics then .error (.keyGeneration r.partition.name "key generation panicked")
  else KeySet.generate r.partition r.seed

/-- A result that the generator may give on a flight. -/
def Gives (r : KeyRequest) (flight : Nat) (result : Except KeyError SharedKeys) : Prop :=
  ∃ panics, result = (r.generation panics).map (⟨flight, ·⟩)

end KeyRequest

/-- How far a call is. -/
inductive Caller
  /-- Its lookup missed, and its generator runs. -/
  | generating (request : KeyRequest) (flight : Nat)
  /-- The slot is settled, but those who wait have not been told. -/
  | publishing (request : KeyRequest) (flight : Nat) (result : Except KeyError SharedKeys)
  /-- It is back with what its own generator gave. -/
  | generated (request : KeyRequest) (flight : Nat) (result : Except KeyError SharedKeys)
  | waiting (request : KeyRequest) (flight : Nat)
  /-- It is back with what it waited for. -/
  | waited (request : KeyRequest) (flight : Nat) (result : Except KeyError SharedKeys)
  /-- It was back after one section. -/
  | answered (answer : KeyAnswer)
  deriving DecidableEq

namespace Caller

/-- What a call has given back. -/
def answer? : Caller → Option KeyAnswer
  | .generated r _ result => some (r.answer result)
  | .waited r _ result => some (r.answer result)
  | .answered answer => some answer
  | .generating .. => none
  | .publishing .. => none
  | .waiting .. => none

/-- The flight that a call opened, with its request. -/
def opened? : Caller → Option (KeyRequest × Nat)
  | .generating r flight => some (r, flight)
  | .publishing r flight _ => some (r, flight)
  | .generated r flight _ => some (r, flight)
  | .waiting .. => none
  | .waited .. => none
  | .answered _ => none

end Caller

/-! ## the manager -/

/-- A key manager, with all calls so far in the order in which they began. -/
structure KeyManager where
  cache : KeyCache
  /-- What the flights have been completed with. -/
  completed : Nat → Option (Except KeyError SharedKeys) := fun _ => none
  callers : List Caller := []

namespace KeyManager

/-- Something that happens at once: a call begins, or one that has begun goes on. -/
inductive Move
  | request (r : KeyRequest)
  | importBlob (b : KeyBlob)
  | evict (name : String)
  | clear
  | generate (caller : Nat) (panics : Bool)
  | publish (caller : Nat)
  | receive (caller : Nat)

/-- A new manager. -/
def start (capacity : Nat) : KeyManager := { cache := KeyCache.empty capacity }

/-- How far the call at a place is. -/
def caller? (m : KeyManager) (i : Nat) : Option Caller := m.callers[i]?

/-- A call begins. -/
def join (m : KeyManager) (c : KeyCache) (x : Caller) : KeyManager :=
  { m with cache := c, callers := m.callers ++ [x] }

/-- A call goes on. -/
def advance (m : KeyManager) (i : Nat) (x : Caller) : KeyManager :=
  { m with callers := m.callers.set i x }

/-- The first section of a request. -/
def request (m : KeyManager) (r : KeyRequest) : KeyManager :=
  match r.partition.validate with
  | .error e => m.join m.cache (.answered (r.answer (.error e)))
  | .ok () =>
    match m.cache.lookup r.id with
    | (.hit shared, c) => m.join c (.answered (r.answer (.ok shared)))
    | (.wait flight, c) => m.join c (.waiting r flight)
    | (.miss flight, c) => m.join c (.generating r flight)

/-- An import, in one section. -/
def importBlob (m : KeyManager) (b : KeyBlob) : KeyManager :=
  m.join (m.cache.importBlob b).2 (.answered (.keys (m.cache.importBlob b).1))

/-- A generator comes to its end, and the second section of its request settles the slot. -/
def generate (m : KeyManager) (i : Nat) (panics : Bool) : KeyManager :=
  match m.caller? i with
  | some (.generating r flight) =>
    let settled := m.cache.settle r.id flight (r.generation panics)
    { m with cache := settled.2 }.advance i (.publishing r flight settled.1)
  | _ => m

/-- A flight is completed. -/
def publish (m : KeyManager) (i : Nat) : KeyManager :=
  match m.caller? i with
  | some (.publishing r flight result) =>
    { m with completed := Function.update m.completed flight (some result) }.advance i
      (.generated r flight result)
  | _ => m

/-- Someone who waits is told, once the flight is completed. -/
def receive (m : KeyManager) (i : Nat) : KeyManager :=
  match m.caller? i with
  | some (.waiting r flight) =>
    match m.completed flight with
    | some result => m.advance i (.waited r flight result)
    | none => m
  | _ => m

/-- One move; a call that cannot go on stays where it is. -/
def step (m : KeyManager) : Move → KeyManager
  | .request r => m.request r
  | .importBlob b => m.importBlob b
  | .evict name => m.join (m.cache.evict name).2 (.answered (.dropped (m.cache.evict name).1))
  | .clear => m.join m.cache.clear.2 (.answered (.dropped m.cache.clear.1))
  | .generate i panics => m.generate i panics
  | .publish i => m.publish i
  | .receive i => m.receive i

/-- Moves one after the other. -/
def run (m : KeyManager) (moves : List Move) : KeyManager := moves.foldl step m

/-! ## laws of a run -/

/-- What the call at a place has opened. -/
def opened? (m : KeyManager) (i : Nat) : Option (KeyRequest × Nat) := (m.caller? i).bind Caller.opened?

/-- A flight was opened for an identity. -/
def Opened (m : KeyManager) (id : KeyId) (flight : Nat) : Prop :=
  ∃ i r, m.opened? i = some (r, flight) ∧ r.id = id

/-- What holds of a call. -/
def Admits (m : KeyManager) : Caller → Prop
  | .generating r _ => r.partition.validate = .ok ()
  | .publishing r flight result => r.Gives flight result
  | .generated r flight result => r.Gives flight result ∧ m.completed flight = some result
  | .waiting r flight => m.Opened r.id flight
  | .waited r flight result => m.Opened r.id flight ∧ m.completed flight = some result
  | .answered _ => True

/-- The laws that every run keeps. -/
structure Sound (m : KeyManager) : Prop where
  distinct : m.cache.Distinct
  fresh : ∀ i r flight, m.opened? i = some (r, flight) → flight < m.cache.nextSerial
  /-- A flight is opened by one call. -/
  sole : ∀ i j r s flight, m.opened? i = some (r, flight) → m.opened? j = some (s, flight) → i = j
  /-- A flight that is open in the cache is being generated. -/
  flying : ∀ id flight, m.cache.flight? id = some flight →
    ∃ i r, m.caller? i = some (.generating r flight) ∧ r.id = id
  /-- A flight is completed by the call that opened it. -/
  settled : ∀ flight result, m.completed flight = some result →
    ∃ i r, m.caller? i = some (.generated r flight result)
  admits : ∀ i x, m.caller? i = some x → m.Admits x

/-- Every running generation has its flight in the cache. -/
def Guarded (m : KeyManager) : Prop :=
  ∀ i r flight, m.caller? i = some (.generating r flight) → m.cache.flight? r.id = some flight

/-- One generation at most is in progress for an identity. -/
def SingleFlight (m : KeyManager) : Prop :=
  ∀ i j r s f g, m.caller? i = some (.generating r f) → m.caller? j = some (.generating s g) →
    r.id = s.id → i = j

/-- An import is about to take the place of an open flight. -/
def Displaces (m : KeyManager) (move : Move) : Prop :=
  ∃ b keys flight, move = .importBlob b ∧ b.toKeySet = .ok keys ∧
    m.cache.flight? (KeyId.of keys.partition keys.seed) = some flight

/-- No import takes the place of an open flight. -/
def Undisturbed (m : KeyManager) : List Move → Prop
  | [] => True
  | move :: rest => ¬ m.Displaces move ∧ (m.step move).Undisturbed rest

variable {m m' : KeyManager} {c : KeyCache} {x y z : Caller} {i j : Nat} {r s : KeyRequest}
  {flight : Nat} {result : Except KeyError SharedKeys}

/-- A guarded manager has one generation of each identity. -/
theorem Guarded.singleFlight (guarded : m.Guarded) (sound : m.Sound) : m.SingleFlight := by
  intro i j r s f g hi hj same
  have first := guarded i r f hi
  have second := guarded j s g hj
  rw [same, second] at first
  obtain rfl := Option.some.inj first
  refine sound.sole i j r s g ?_ ?_
  · simp [opened?, hi, Caller.opened?]
  · simp [opened?, hj, Caller.opened?]

/-! ## calls that begin, and calls that go on -/

theorem caller?_join :
    (m.join c x).caller? i = some y ↔ m.caller? i = some y ∨ i = m.callers.length ∧ y = x := by
  unfold caller? join
  rw [List.getElem?_append]
  by_cases old : i < m.callers.length
  · have : i ≠ m.callers.length := by omega
    simp [old, this]
  · rw [if_neg old, List.getElem?_eq_none (by omega : m.callers.length ≤ i)]
    by_cases last : i = m.callers.length
    · simp [last, eq_comm]
    · have : [x].length ≤ i - m.callers.length := by
        rw [List.length_singleton]
        omega
      simp [last, List.getElem?_eq_none this]

theorem caller?_advance {done : Nat → Option (Except KeyError SharedKeys)}
    (here : m.caller? i = some x) :
    ({ cache := c, completed := done, callers := m.callers : KeyManager }.advance i y).caller? j =
      if j = i then some y else m.caller? j := by
  have inside : i < m.callers.length := (List.getElem?_eq_some_iff.mp here).1
  unfold caller? advance
  rw [List.getElem?_set]
  by_cases same : i = j
  · simp [← same, inside]
  · simp [same, Ne.symm same]

theorem opened?_join :
    (m.join c x).opened? i = some (r, flight) ↔
      m.opened? i = some (r, flight) ∨ i = m.callers.length ∧ x.opened? = some (r, flight) := by
  simp only [opened?, Option.bind_eq_some_iff, caller?_join]
  constructor
  · rintro ⟨y, old | ⟨last, rfl⟩, found⟩
    · exact .inl ⟨y, old, found⟩
    · exact .inr ⟨last, found⟩
  · rintro (⟨y, old, found⟩ | ⟨last, found⟩)
    · exact ⟨y, .inl old, found⟩
    · exact ⟨x, .inr ⟨last, rfl⟩, found⟩

/-- A call that goes on has opened what it had opened. -/
theorem opened?_advance {done : Nat → Option (Except KeyError SharedKeys)}
    (here : m.caller? i = some x) (same : y.opened? = x.opened?) :
    ({ cache := c, completed := done, callers := m.callers : KeyManager }.advance i y).opened? =
      m.opened? := by
  funext j
  unfold opened?
  rw [caller?_advance here]
  by_cases other : j = i
  · simp [other, here, same]
  · simp [other]

/-- What holds of a call goes on to hold while flights are only opened and completed. -/
theorem Admits.mono (h : m.Admits x)
    (opened : ∀ i r flight, m.opened? i = some (r, flight) → m'.opened? i = some (r, flight))
    (completed : ∀ flight result, m.completed flight = some result →
      m'.completed flight = some result) : m'.Admits x := by
  have still {id : KeyId} {flight : Nat} (old : m.Opened id flight) : m'.Opened id flight := by
    obtain ⟨i, r, owns, same⟩ := old
    exact ⟨i, r, opened i r flight owns, same⟩
  cases x with
  | generating r flight => exact h
  | publishing r flight result => exact h
  | generated r flight result => exact ⟨h.1, completed _ _ h.2⟩
  | waiting r flight => exact still h
  | waited r flight result => exact ⟨still h.1, completed _ _ h.2⟩
  | answered answer => trivial

/-! ## soundness of a run -/

theorem sound_start (capacity : Nat) : (start capacity).Sound where
  distinct := List.nodup_nil
  fresh i r flight owns := by simp [opened?, caller?, start] at owns
  sole i j r s flight owns := by simp [opened?, caller?, start] at owns
  flying id flight flies := by simp [start, KeyCache.empty, KeyCache.flight?, KeyCache.slot?] at flies
  settled flight result done := by simp [start] at done
  admits i x here := by simp [caller?, start] at here

variable {flights : KeyId → Option Nat} {serial : Nat}

/-- A call may begin with a flight of its own, and otherwise opens none. -/
theorem Sound.join (h : m.Sound) (fly : c.Flying flights serial)
    (grows : m.cache.nextSerial ≤ serial)
    (new : ∀ r flight, x.opened? = some (r, flight) → flight = m.cache.nextSerial ∧ flight < serial)
    (flying : ∀ id flight, flights id = some flight →
      m.cache.flight? id = some flight ∨ ∃ r, x = .generating r flight ∧ r.id = id)
    (admits : m.Admits x) : (m.join c x).Sound where
  distinct := fly.distinct
  fresh i r flight owns := by
    show flight < c.nextSerial
    rw [fly.next]
    rcases opened?_join.mp owns with old | ⟨-, owned⟩
    · exact Nat.lt_of_lt_of_le (h.fresh i r flight old) grows
    · exact (new r flight owned).2
  sole i j r s flight first second := by
    rcases opened?_join.mp first with old | ⟨rfl, owned⟩
    · rcases opened?_join.mp second with old' | ⟨rfl, owned'⟩
      · exact h.sole i j r s flight old old'
      · have := h.fresh i r flight old
        have := (new s flight owned').1
        omega
    · rcases opened?_join.mp second with old' | ⟨rfl, owned'⟩
      · have := h.fresh j s flight old'
        have := (new r flight owned).1
        omega
      · rfl
  flying id flight flies := by
    replace flies : c.flight? id = some flight := flies
    rw [fly.open_] at flies
    rcases flying id flight flies with old | ⟨r, rfl, same⟩
    · obtain ⟨i, r, there, same⟩ := h.flying id flight old
      exact ⟨i, r, caller?_join.mpr (.inl there), same⟩
    · exact ⟨_, r, caller?_join.mpr (.inr ⟨rfl, rfl⟩), same⟩
  settled flight result done := by
    obtain ⟨i, r, there⟩ := h.settled flight result done
    exact ⟨i, r, caller?_join.mpr (.inl there)⟩
  admits i y here := by
    have known : m.Admits y := by
      rcases caller?_join.mp here with old | ⟨-, rfl⟩
      · exact h.admits i y old
      · exact admits
    exact known.mono (fun i r flight owns => opened?_join.mpr (.inl owns)) fun _ _ done => done

/-- A call that opens no flight and joins none. -/
theorem Sound.join_answered {answer : KeyAnswer} (h : m.Sound) (fly : c.Flying flights serial)
    (grows : m.cache.nextSerial ≤ serial)
    (closed : ∀ id flight, flights id = some flight → m.cache.flight? id = some flight) :
    (m.join c (.answered answer)).Sound :=
  h.join fly grows (fun r flight owns => by simp [Caller.opened?] at owns)
    (fun id flight flies => .inl (closed id flight flies)) trivial

/-- What an update with nothing leaves was there before. -/
theorem of_update_none {id k : KeyId} (h : Function.update flights id none k = some flight) :
    k ≠ id ∧ flights k = some flight := by
  rw [Function.update_apply] at h
  split at h
  · contradiction
  · next other => exact ⟨other, h⟩

theorem Sound.flying_self (h : m.Sound) :
    m.cache.Flying m.cache.flight? m.cache.nextSerial :=
  ⟨h.distinct, rfl, rfl⟩

theorem Sound.request (h : m.Sound) (r : KeyRequest) : (m.request r).Sound := by
  unfold KeyManager.request
  cases valid : r.partition.validate with
  | error e => exact h.join_answered h.flying_self (Nat.le_refl _) fun _ _ old => old
  | ok u =>
      obtain ⟨shared, used, c, found, -, fly⟩ | ⟨flight, c, found, there, fly⟩ | ⟨c, found, free, fly⟩ :=
        h.flying_self.lookup r.id
      · simp only [found]
        exact h.join_answered fly (Nat.le_refl _) fun _ _ old => old
      · simp only [found]
        obtain ⟨i, s, generating, same⟩ := h.flying r.id flight there
        refine h.join fly (Nat.le_refl _) (fun _ _ owns => ?_) (fun _ _ old => .inl old) ⟨i, s, ?_, same⟩
        · simp [Caller.opened?] at owns
        · simp [opened?, generating, Caller.opened?]
      · simp only [found]
        refine h.join fly (by omega) (fun s flight owns => ?_) (fun id flight flies => ?_) valid
        · obtain ⟨-, rfl⟩ := Prod.mk.inj (Option.some.inj owns)
          exact ⟨rfl, Nat.lt_succ_self _⟩
        · rw [Function.update_apply] at flies
          split at flies
          · next same =>
              obtain rfl := Option.some.inj flies
              exact .inr ⟨r, rfl, same.symm⟩
          · exact .inl flies

theorem Sound.importBlob (h : m.Sound) (b : KeyBlob) : (m.importBlob b).Sound := by
  unfold KeyManager.importBlob
  rcases h.flying_self.importBlob b with ⟨e, -, refused⟩ | ⟨keys, -, fly⟩
  · rw [refused]
    exact h.join_answered h.flying_self (Nat.le_refl _) fun _ _ old => old
  · exact h.join_answered fly (by omega) fun _ _ flies => (of_update_none flies).2

/-- A call that goes on keeps its flight, which it may close and complete. -/
theorem Sound.advance (h : m.Sound) (here : m.caller? i = some x) (same : y.opened? = x.opened?)
    {done : Nat → Option (Except KeyError SharedKeys)}
    (fly : c.Flying flights m.cache.nextSerial)
    (unfinished : ∀ r flight result, x ≠ .generated r flight result)
    (flying : ∀ id flight, flights id = some flight →
      m.cache.flight? id = some flight ∧ ∀ r, x = .generating r flight → r.id ≠ id)
    (kept : ∀ flight result, m.completed flight = some result → done flight = some result)
    (settled : ∀ flight result, done flight = some result →
      m.completed flight = some result ∨ ∃ r, y = .generated r flight result)
    (admits : ({ m with cache := c, completed := done }.advance i y).Admits y) :
    ({ m with cache := c, completed := done }.advance i y).Sound := by
  have place (j : Nat) : ({ m with cache := c, completed := done }.advance i y).caller? j =
      if j = i then some y else m.caller? j :=
    caller?_advance here
  have opened : ({ m with cache := c, completed := done }.advance i y).opened? = m.opened? :=
    opened?_advance here same
  refine ⟨fly.distinct, ?_, ?_, ?_, ?_, ?_⟩
  · intro j r flight owns
    show flight < c.nextSerial
    rw [fly.next]
    rw [opened] at owns
    exact h.fresh j r flight owns
  · rw [opened]
    exact h.sole
  · intro id flight flies
    replace flies : c.flight? id = some flight := flies
    rw [fly.open_] at flies
    obtain ⟨old, other⟩ := flying id flight flies
    obtain ⟨j, r, there, this⟩ := h.flying id flight old
    have : j ≠ i := by
      rintro rfl
      rw [here] at there
      exact other r (Option.some.inj there) this
    refine ⟨j, r, ?_, ‹r.id = id›⟩
    rw [place, if_neg this, there]
  · intro flight result complete
    rcases settled flight result complete with old | ⟨r, rfl⟩
    · obtain ⟨j, r, there⟩ := h.settled flight result old
      have : j ≠ i := by
        rintro rfl
        rw [here] at there
        exact unfinished r flight result (Option.some.inj there)
      refine ⟨j, r, ?_⟩
      rw [place, if_neg this, there]
    · refine ⟨i, r, ?_⟩
      rw [place, if_pos rfl]
  · intro j z there
    rw [place] at there
    split at there
    · obtain rfl := Option.some.inj there
      exact admits
    · refine (h.admits j z there).mono (fun k r flight owns => ?_) kept
      rw [opened, owns]

theorem Sound.generate (h : m.Sound) (panics : Bool) : (m.generate i panics).Sound := by
  unfold KeyManager.generate
  split
  · next r flight here =>
      have fly := h.flying_self.settle r.id flight (r.generation panics)
      refine h.advance (y := .publishing r flight _) here rfl fly nofun (fun id f flies => ?_) (fun _ _ old => old)
        (fun _ _ old => .inl old) ?_
      · obtain ⟨other, old⟩ := of_update_none flies
        refine ⟨old, fun s same => ?_⟩
        obtain ⟨rfl, -⟩ := Caller.generating.inj same
        exact other.symm
      · refine ⟨panics, ?_⟩
        cases r.generation panics <;> rfl
  · exact h

theorem Sound.publish (h : m.Sound) : (m.publish i).Sound := by
  unfold KeyManager.publish
  split
  · next r flight result here =>
      have owns : m.opened? i = some (r, flight) := by simp [opened?, here, Caller.opened?]
      have unsettled : m.completed flight = none := by
        cases done : m.completed flight with
        | none => rfl
        | some old =>
            obtain ⟨j, s, there⟩ := h.settled flight old done
            have owns' : m.opened? j = some (s, flight) := by simp [opened?, there, Caller.opened?]
            obtain rfl := h.sole i j r s flight owns owns'
            rw [here] at there
            simp at there
      refine h.advance (y := .generated r flight result) here rfl h.flying_self nofun
        (fun id f old => ⟨old, nofun⟩) (fun f old done => ?_) (fun f new done => ?_) ?_
      · rw [Function.update_apply, if_neg, done]
        rintro rfl
        rw [unsettled] at done
        contradiction
      · rw [Function.update_apply] at done
        split at done
        · next same =>
            subst same
            obtain rfl := Option.some.inj done
            exact .inr ⟨r, rfl⟩
        · exact .inl done
      · exact ⟨h.admits i _ here, Function.update_self ..⟩
  · exact h

theorem Sound.receive (h : m.Sound) : (m.receive i).Sound := by
  unfold KeyManager.receive
  split
  · next r flight here =>
      split
      · next result done =>
          refine h.advance (y := .waited r flight result) here rfl h.flying_self nofun
            (fun id f old => ⟨old, nofun⟩) (fun _ _ old => old) (fun _ _ old => .inl old) ?_
          obtain ⟨j, s, owns, same⟩ := h.admits i _ here
          refine ⟨⟨j, s, ?_, same⟩, done⟩
          rw [opened?_advance (y := .waited r flight result) here rfl, owns]
      · exact h
  · exact h

/-- Every move keeps the laws. -/
theorem Sound.step (h : m.Sound) (move : Move) : (m.step move).Sound := by
  cases move with
  | request r => exact h.request r
  | importBlob b => exact h.importBlob b
  | evict name =>
      exact h.join_answered (h.flying_self.evict name) (Nat.le_refl _) fun _ _ old => old
  | clear => exact h.join_answered h.flying_self.clear (Nat.le_refl _) fun _ _ old => old
  | generate i panics => exact h.generate panics
  | publish i => exact h.publish
  | receive i => exact h.receive

/-- So do all moves together. -/
theorem Sound.run (h : m.Sound) (moves : List Move) : (m.run moves).Sound := by
  induction moves generalizing m with
  | nil => exact h
  | cons move rest ih => exact ih (h.step move)

/-! ## guarded generations -/

theorem guarded_start (capacity : Nat) : (start capacity).Guarded := by
  intro i r flight here
  simp [caller?, start] at here

/-- A call begins, and the flights of the others stay. -/
theorem Guarded.join (fly : c.Flying flights serial)
    (old : ∀ i r flight, m.caller? i = some (.generating r flight) → flights r.id = some flight)
    (new : ∀ r flight, x = .generating r flight → flights r.id = some flight) :
    (m.join c x).Guarded := by
  intro i r flight here
  show c.flight? r.id = some flight
  rw [fly.open_]
  rcases caller?_join.mp here with there | ⟨-, rfl⟩
  · exact old i r flight there
  · exact new r flight rfl

theorem Guarded.request (g : m.Guarded) (h : m.Sound) (r : KeyRequest) : (m.request r).Guarded := by
  unfold KeyManager.request
  cases valid : r.partition.validate with
  | error e => exact Guarded.join h.flying_self g nofun
  | ok u =>
      obtain ⟨shared, used, c, found, -, fly⟩ | ⟨flight, c, found, there, fly⟩ | ⟨c, found, free, fly⟩ :=
        h.flying_self.lookup r.id
      · simp only [found]
        exact Guarded.join fly g nofun
      · simp only [found]
        exact Guarded.join fly g nofun
      · simp only [found]
        refine Guarded.join fly (fun i s flight there => ?_) fun s flight same => ?_
        · have guarded := g i s flight there
          rw [Function.update_of_ne, guarded]
          intro same
          rw [same, free] at guarded
          contradiction
        · obtain ⟨rfl, rfl⟩ := Caller.generating.inj same
          exact Function.update_self ..

/-- An import leaves the flights alone, unless it displaces one. -/
theorem Guarded.importBlob (g : m.Guarded) (h : m.Sound) {b : KeyBlob}
    (calm : ¬ m.Displaces (.importBlob b)) : (m.importBlob b).Guarded := by
  unfold KeyManager.importBlob
  rcases h.flying_self.importBlob b with ⟨e, -, refused⟩ | ⟨keys, read, fly⟩
  · rw [refused]
    exact Guarded.join h.flying_self g nofun
  · have closed : m.cache.flight? (KeyId.of keys.partition keys.seed) = none := by
      cases there : m.cache.flight? (KeyId.of keys.partition keys.seed) with
      | none => rfl
      | some flight => exact absurd ⟨b, keys, flight, rfl, read, there⟩ calm
    rw [KeyCache.update_none closed] at fly
    exact Guarded.join fly g nofun

theorem Guarded.generate (g : m.Guarded) (h : m.Sound) (panics : Bool) :
    (m.generate i panics).Guarded := by
  unfold KeyManager.generate
  split
  · next r flight here =>
      have fly := h.flying_self.settle r.id flight (r.generation panics)
      intro j s f there
      show (m.cache.settle r.id flight (r.generation panics)).2.flight? s.id = some f
      rw [caller?_advance here] at there
      split at there
      · simp at there
      · next other =>
          rw [fly.open_, Function.update_of_ne, g j s f there]
          intro same
          exact other (g.singleFlight h j i s r f flight there here same)
  · exact g

/-- A call that goes on without touching the cache. -/
theorem Guarded.advance (g : m.Guarded) (done : Nat → Option (Except KeyError SharedKeys))
    (here : m.caller? i = some x) (ended : ∀ r flight, y ≠ .generating r flight) :
    ({ m with completed := done }.advance i y).Guarded := by
  intro j r flight there
  rw [caller?_advance here] at there
  split at there
  · exact absurd (Option.some.inj there) (ended r flight)
  · exact g j r flight there

/-- A move that displaces no flight keeps all generations guarded. -/
theorem Guarded.step (g : m.Guarded) (h : m.Sound) {move : Move} (calm : ¬ m.Displaces move) :
    (m.step move).Guarded := by
  cases move with
  | request r => exact g.request h r
  | importBlob b => exact g.importBlob h calm
  | evict name => exact Guarded.join (h.flying_self.evict name) g nofun
  | clear => exact Guarded.join h.flying_self.clear g nofun
  | generate i panics => exact g.generate h panics
  | publish i =>
      show (m.publish i).Guarded
      unfold KeyManager.publish
      split
      · next r flight result here => exact g.advance _ here nofun
      · exact g
  | receive i =>
      show (m.receive i).Guarded
      unfold KeyManager.receive
      split
      · next r flight here =>
          split
          · next result done => exact g.advance m.completed here nofun
          · exact g
      · exact g

/-- A run in which no import displaces a flight keeps all generations guarded. -/
theorem Guarded.run (g : m.Guarded) (h : m.Sound) {moves : List Move} (calm : m.Undisturbed moves) :
    (m.run moves).Guarded := by
  induction moves generalizing m with
  | nil => exact g
  | cons move rest ih => exact ih (g.step h calm.1) (h.step move) calm.2

/-! ## those who wait -/

/-- Whoever was told, was told what the one generator of the flight gave. -/
theorem Sound.waited (h : m.Sound) (here : m.caller? i = some (.waited r flight result)) :
    ∃ j s, m.caller? j = some (.generated s flight result) ∧ s.id = r.id ∧ s.Gives flight result ∧
      ∀ k t, m.opened? k = some (t, flight) → k = j := by
  obtain ⟨⟨j, s, owns, same⟩, done⟩ := h.admits i _ here
  obtain ⟨k, t, there⟩ := h.settled flight result done
  have owns' : m.opened? k = some (t, flight) := by simp [opened?, there, Caller.opened?]
  obtain rfl := h.sole j k s t flight owns owns'
  rw [owns] at owns'
  obtain ⟨rfl, -⟩ := Prod.mk.inj (Option.some.inj owns')
  exact ⟨j, s, there, same, (h.admits j _ there).1, fun l u owns'' => h.sole l j u s flight owns'' owns⟩

theorem caller?_receive (here : m.caller? i = some (.waiting r flight))
    (done : m.completed flight = some result) :
    (m.receive i).caller? i = some (.waited r flight result) := by
  simp only [receive, here, done]
  rw [caller?_advance here, if_pos rfl]

/-- A flight about to be completed can be, and then those who wait are told. -/
theorem caller?_publish (here : m.caller? i = some (.waiting r flight))
    (there : m.caller? j = some (.publishing s flight result)) :
    (m.run [.publish j, .receive i]).caller? i = some (.waited r flight result) := by
  have other : i ≠ j := by
    rintro rfl
    rw [here] at there
    simp at there
  have place (k : Nat) : (m.publish j).caller? k =
      if k = j then some (.generated s flight result) else m.caller? k := by
    simp only [publish, there]
    exact caller?_advance there
  have done : (m.publish j).completed flight = some result := by
    simp only [publish, there]
    exact Function.update_self ..
  refine caller?_receive (m := m.publish j) ?_ done
  rw [place, if_neg other, here]

/-- Whoever waits can be told: the generator of the flight needs two moves at most to get there. -/
theorem Sound.waiting (h : m.Sound) (here : m.caller? i = some (.waiting r flight)) :
    ∃ moves result, moves.length ≤ 3 ∧
      (m.run moves).caller? i = some (.waited r flight result) := by
  obtain ⟨j, s, owns, -⟩ := h.admits i _ here
  obtain ⟨x, there, opened⟩ := Option.bind_eq_some_iff.mp owns
  have other : i ≠ j := by
    rintro rfl
    rw [here] at there
    obtain rfl := Option.some.inj there
    simp [Caller.opened?] at opened
  cases x with
  | generating s' flight' =>
      obtain ⟨rfl, rfl⟩ := Prod.mk.inj (Option.some.inj opened)
      obtain ⟨result, place⟩ : ∃ result, ∀ k, (m.generate j false).caller? k =
          if k = j then some (.publishing s' flight' result) else m.caller? k := by
        refine ⟨(m.cache.settle s'.id flight' (s'.generation false)).1, fun k => ?_⟩
        simp only [KeyManager.generate, there]
        exact caller?_advance there
      have waiting : (m.generate j false).caller? i = some (.waiting r flight') := by
        rw [place, if_neg other, here]
      have publishing : (m.generate j false).caller? j = some (.publishing s' flight' result) := by
        rw [place, if_pos rfl]
      exact ⟨[.generate j false, .publish j, .receive i], result, by simp,
        caller?_publish waiting publishing⟩
  | publishing s' flight' result =>
      obtain ⟨rfl, rfl⟩ := Prod.mk.inj (Option.some.inj opened)
      exact ⟨[.publish j, .receive i], result, by simp, caller?_publish here there⟩
  | generated s' flight' result =>
      obtain ⟨rfl, rfl⟩ := Prod.mk.inj (Option.some.inj opened)
      exact ⟨[.receive i], result, by simp, caller?_receive here (h.admits j _ there).2⟩
  | waiting s' flight' => simp [Caller.opened?] at opened
  | waited s' flight' result => simp [Caller.opened?] at opened
  | answered answer => simp [Caller.opened?] at opened

/-! ## displaced flights -/

/-- A valid request for which nothing stands in the cache starts a generation. -/
theorem Sound.request_free (h : m.Sound) (valid : r.partition.validate = .ok ())
    (free : m.cache.slot? r.id = none) :
    ∃ flight, (m.request r).caller? m.callers.length = some (.generating r flight) := by
  have closed : m.cache.flight? r.id = none := by
    rw [KeyCache.flight?, free]
    rfl
  simp only [KeyManager.request, valid]
  obtain ⟨shared, used, c, -, there, -⟩ | ⟨flight, c, -, there, -⟩ | ⟨c, found, -, -⟩ :=
    h.flying_self.lookup r.id
  · rw [free] at there
    contradiction
  · rw [closed] at there
    contradiction
  · simp only [found]
    exact ⟨_, caller?_join.mpr (.inr ⟨rfl, rfl⟩)⟩

/-- Once an import has displaced a flight, dropping the ready entries makes room for a second
generation of the same identity, while the first one still runs. -/
theorem Sound.displaced (h : m.Sound) {move : Move} (displaced : m.Displaces move) :
    ∃ r, ¬ (m.run [move, .clear, .request r]).SingleFlight := by
  obtain ⟨b, keys, flight, rfl, read, there⟩ := displaced
  obtain ⟨i, r, here, same⟩ := h.flying _ flight there
  refine ⟨r, fun single => ?_⟩
  have cleared : ((m.importBlob b).step .clear).Sound := (h.importBlob b).step .clear
  have here' : ((m.importBlob b).step .clear).caller? i = some (.generating r flight) :=
    caller?_join.mpr (.inl (caller?_join.mpr (.inl here)))
  have free : ((m.importBlob b).step .clear).cache.slot? r.id = none := by
    cases stands : ((m.importBlob b).step .clear).cache.slot? r.id with
    | none => rfl
    | some s =>
        cases s with
        | ready shared used => simpa [KeySlot.isReady] using KeyCache.isReady_of_clear stands
        | inFlight f =>
            rcases h.flying_self.importBlob b with ⟨e, refused, -⟩ | ⟨keys', read', fly⟩
            · rw [read] at refused
              contradiction
            · obtain rfl := Except.ok.inj (read.symm.trans read')
              have open_ : (m.cache.importBlob b).2.clear.2.flight? r.id = some f :=
                KeyCache.flight?_eq_some_iff.mpr stands
              rw [fly.clear.open_, same, Function.update_self] at open_
              contradiction
  obtain ⟨f, second⟩ := cleared.request_free (h.admits i _ here) free
  have first : (((m.importBlob b).step .clear).request r).caller? i = some (.generating r flight) := by
    unfold KeyManager.request
    split
    · exact caller?_join.mpr (.inl here')
    · split <;> exact caller?_join.mpr (.inl here')
  have last := single i _ r r flight f first second rfl
  have inside := (List.getElem?_eq_some_iff.mp here').1
  omega

/-! ## calls one after the other -/

/-- A call that is back does not go on. -/
theorem run_answered {answer : KeyAnswer} (here : m.caller? i = some (.answered answer))
    (panics : Bool) : m.run [.generate i panics, .publish i] = m := by
  show (m.generate i panics).publish i = m
  have stays : m.generate i panics = m := by simp only [generate, here]
  rw [stays]
  simp only [publish, here]

/-- A generation that comes to its end gives its result to the caller. -/
theorem run_generating (here : m.caller? i = some (.generating r flight)) (panics : Bool) :
    let settled := m.cache.settle r.id flight (r.generation panics)
    (m.run [.generate i panics, .publish i]).cache = settled.2 ∧
      (m.run [.generate i panics, .publish i]).caller? i = some (.generated r flight settled.1) := by
  intro settled
  have generated : m.generate i panics =
      { m with cache := settled.2 }.advance i (.publishing r flight settled.1) := by
    simp only [generate, here, settled]
  have there : (m.generate i panics).caller? i = some (.publishing r flight settled.1) := by
    rw [generated, caller?_advance here, if_pos rfl]
  show ((m.generate i panics).publish i).cache = _ ∧ ((m.generate i panics).publish i).caller? i = _
  simp only [publish, there]
  refine ⟨by rw [generated]; rfl, ?_⟩
  rw [caller?_advance there, if_pos rfl]

/-- A request that runs on its own is answered by `KeyCache.getOrCreate`. -/
theorem Sound.alone (h : m.Sound) (quiet : m.cache.flight? r.id = none) :
    let m' := m.run [.request r, .generate m.callers.length false, .publish m.callers.length]
    let answered := m.cache.getOrCreate r.partition r.seed
    m'.cache = answered.2 ∧
      (m'.caller? m.callers.length).bind Caller.answer? = some (r.answer answered.1) := by
  intro m' answered
  have last (c : KeyCache) (x : Caller) : (m.join c x).caller? m.callers.length = some x :=
    caller?_join.mpr (.inr ⟨rfl, rfl⟩)
  have back (c : KeyCache) (result : Except KeyError SharedKeys)
      (begun : m.request r = m.join c (.answered (r.answer result))) (same : answered = (result, c)) :
      m'.cache = answered.2 ∧
        (m'.caller? m.callers.length).bind Caller.answer? = some (r.answer answered.1) := by
    have ended : m' = m.join c (.answered (r.answer result)) := by
      show (m.request r).run _ = _
      rw [begun]
      exact run_answered (last c _) false
    rw [ended, same, last]
    exact ⟨rfl, rfl⟩
  cases valid : r.partition.validate with
  | error e =>
      refine back m.cache (.error e) ?_ ?_
      · simp only [KeyManager.request, valid]
      · simp only [answered, KeyCache.getOrCreate, valid]
  | ok u =>
      obtain ⟨shared, used, c, found, -, -⟩ | ⟨flight, c, -, there, -⟩ | ⟨c, found, -, -⟩ :=
        h.flying_self.lookup r.id
      · refine back c (.ok shared) ?_ ?_
        · simp only [KeyManager.request, valid, found]
        · simp only [answered, KeyCache.getOrCreate, valid, KeyRequest.id] at found ⊢
          simp only [found]
      · rw [quiet] at there
        contradiction
      · have begun : m.request r = m.join c (.generating r m.cache.nextSerial) := by
          simp only [KeyManager.request, valid, found]
        have same : answered = c.settle r.id m.cache.nextSerial (r.generation false) := by
          simp only [answered, KeyCache.getOrCreate, valid, KeyRequest.id] at found ⊢
          simp only [found]
          rfl
        obtain ⟨cache, caller⟩ := run_generating (last c (.generating r m.cache.nextSerial)) false
        show ((m.request r).run _).cache = _ ∧ (((m.request r).run _).caller? _).bind _ = _
        rw [begun, same, caller]
        exact ⟨cache, rfl⟩

/-! ## single flight -/

/-- The law of single flight. While no import displaces an open flight, one generation at most is
in progress for each identity; an import that does displace one can be followed by a second
generation. In every run, whoever waited for a flight was told what its one generator gave, and
whoever waits can be told. -/
theorem run_single_flight (capacity : Nat) (moves : List Move) :
    let m := (start capacity).run moves
    ((start capacity).Undisturbed moves → m.SingleFlight) ∧
      (∀ move, m.Displaces move → ∃ r, ¬ (m.run [move, .clear, .request r]).SingleFlight) ∧
      (∀ i r flight result, m.caller? i = some (.waited r flight result) →
        ∃ j s, m.caller? j = some (.generated s flight result) ∧ s.id = r.id ∧
          s.Gives flight result ∧ ∀ k t, m.opened? k = some (t, flight) → k = j) ∧
      ∀ i r flight, m.caller? i = some (.waiting r flight) →
        ∃ next result, next.length ≤ 3 ∧ (m.run next).caller? i = some (.waited r flight result) := by
  have sound := (sound_start capacity).run moves
  refine ⟨fun calm => ?_, fun move displaced => ?_, fun i r flight result here => ?_,
    fun i r flight here => ?_⟩
  · exact ((guarded_start capacity).run (sound_start capacity) calm).singleFlight sound
  · exact sound.displaced displaced
  · exact sound.waited here
  · exact sound.waiting here

/-- A request for the keys of a small partition. -/
def sample : KeyRequest := { partition := Collision.base, seed := {} }

/-- Supplied keys of the same identity. -/
def supplied : KeyBlob :=
  { version := 1, partition := Collision.base, seed := {}, keyBytes := List.replicate 5 0 }

/-- Two requests share a flight, until supplied keys displace it; and a generation that panics is
told to the one who waits. -/
theorem run_single_flight_shared :
    ((start 1).run [.request sample, .request sample]).SingleFlight ∧
      (∃ r, ¬ (((start 1).run [.request sample, .request sample]).run
        [.importBlob supplied, .clear, .request r]).SingleFlight) ∧
      (∃ j s, ((start 1).run [.request sample, .request sample, .generate 0 true, .publish 0,
        .receive 1]).caller? j =
          some (.generated s 0 (.error (.keyGeneration "P" "key generation panicked")))) ∧
      ∃ next result, next.length ≤ 3 ∧
        (((start 1).run [.request sample, .request sample]).run next).caller? 1 =
          some (.waited sample 0 result) := by
  obtain ⟨single, second, -, told⟩ := run_single_flight 1 [.request sample, .request sample]
  obtain ⟨-, -, heard, -⟩ := run_single_flight 1
    [.request sample, .request sample, .generate 0 true, .publish 0, .receive 1]
  have displaced : ((start 1).run [.request sample, .request sample]).Displaces
      (.importBlob supplied) := by
    refine ⟨supplied, ⟨Collision.base, {}, [false], List.replicate 4 false⟩, 0, rfl, ?_, ?_⟩
    · decide +kernel
    · decide +kernel
  refine ⟨single ⟨nofun, nofun, trivial⟩, second _ displaced, ?_, told 1 sample 0 (by decide +kernel)⟩
  obtain ⟨j, s, there, -⟩ := heard 1 sample 0 (.error (.keyGeneration "P" "key generation panicked"))
    (by decide +kernel)
  exact ⟨j, s, there⟩

end KeyManager

end HomCircuit
