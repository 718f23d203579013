import HomCircuit.Proofs.Context.Legacy

/-!
# HomCircuit.Proofs.Context.Tokens

What the holders of tokens do, and which of their tokens are cancelled by it.

```
issue            a token of its own                 origin: this act
copy k           another token with the number of k      the origin of k
cancel k         all tokens of the origin of k
cancelInFlight   all tokens of earlier origins
```

An epoch is a 64-bit number, so it comes back to where it was after 2 ^ 64 cancellations of all that is in
flight, and no earlier.

* `TokenAct`, `TokenAct.origins` — what holders do, and where the tokens they hold come from;
* `Context.after`, `Context.held` — the context and the tokens that it comes to;
* `TokenAct.Cancels` — what cancels all tokens of an origin;
* `Context.isCancelled_iff` — nothing else does.
-/

namespace HomCircuit

/-! ## acts -/

/-- What is done with the tokens of a context: the tokens held are counted from zero. -/
inductive TokenAct
  | issue
  | copy (k : Nat)
  | cancel (k : Nat)
  | cancelInFlight
  deriving DecidableEq

namespace TokenAct

/-- One act changes the context and the tokens held. -/
def act : Context × List CancelToken → TokenAct → Context × List CancelToken
  | (c, held), .issue => (c.token.2, held ++ [c.token.1])
  | (c, held), .copy k => (c, held ++ held[k]?.toList)
  | (c, held), .cancel k => (held[k]?.elim c fun t => c.cancel t, held)
  | (c, held), .cancelInFlight => (c.cancelInFlight, held)

/-- The origins of the tokens held after one more act. -/
def extend (origins : List Nat) : TokenAct × Nat → List Nat
  | (.issue, n) => origins ++ [n]
  | (.copy k, _) => origins ++ origins[k]?.toList
  | _ => origins

/-- For each token held, the act that it or what it was copied from was issued by. -/
def origins (acts : List TokenAct) : List Nat := acts.zipIdx.foldl extend []

/-- A token of an origin was cancelled. -/
def Raises (acts : List TokenAct) (origin : Nat) : Prop :=
  ∃ n k, acts[n]? = some (.cancel k) ∧ (origins (acts.take n))[k]? = some origin

/-- A token of an origin was cancelled, or all that was in flight was later than the origin. -/
def Cancels (acts : List TokenAct) (origin : Nat) : Prop :=
  Raises acts origin ∨ ∃ n, origin < n ∧ acts[n]? = some .cancelInFlight

end TokenAct

/-- A context and the tokens held after some acts. -/
def Context.act (c : Context) (acts : List TokenAct) : Context × List CancelToken :=
  acts.foldl TokenAct.act (c, [])

/-- A context after some acts. -/
def Context.after (c : Context) (acts : List TokenAct) : Context := (c.act acts).1

/-- The tokens held after some acts. -/
def Context.held (c : Context) (acts : List TokenAct) : List CancelToken := (c.act acts).2

/-! ## origins -/

namespace TokenAct

variable {acts : List TokenAct} {a : TokenAct} {n k o : Nat}

theorem origins_snoc (acts : List TokenAct) (a : TokenAct) :
    origins (acts ++ [a]) = extend (origins acts) (a, acts.length) := by
  simp [origins, List.zipIdx_append]

/-- Later acts leave the origins of the tokens held as they are. -/
theorem isPrefix_origins (acts more : List TokenAct) : origins acts <+: origins (acts ++ more) := by
  induction more using List.reverseRecOn with
  | nil => simp
  | append_singleton more a ih =>
      rw [← List.append_assoc, origins_snoc]
      refine ih.trans ?_
      cases a <;> simp [extend]

/-- An origin is an act that issues a token. -/
theorem issued_of_mem_origins (h : o ∈ origins acts) : acts[o]? = some .issue := by
  induction acts using List.reverseRecOn with
  | nil => simp [origins] at h
  | append_singleton acts a ih =>
      have old (h : o ∈ origins acts) : (acts ++ [a])[o]? = some .issue := by
        have found := ih h
        rwa [List.getElem?_append_left (List.getElem?_eq_some_iff.mp found).1]
      rw [origins_snoc] at h
      cases a with
      | issue =>
          rcases List.mem_append.mp h with h | h
          · exact old h
          · obtain rfl := List.mem_singleton.mp h
            simp
      | copy k =>
          rcases List.mem_append.mp h with h | h
          · exact old h
          · exact old (List.mem_of_getElem? (Option.mem_toList.mp h))
      | cancel k => exact old h
      | cancelInFlight => exact old h

theorem le_length_of_mem_origins (h : o ∈ origins acts) : o ≤ acts.length :=
  Nat.le_of_lt (List.getElem?_eq_some_iff.mp (issued_of_mem_origins h)).1

/-- Tokens of different origins have different numbers. -/
theorem count_issue_inj {o o' : Nat} (h : acts[o]? = some .issue) (h' : acts[o']? = some .issue)
    (same : (acts.take o).count .issue = (acts.take o').count .issue) : o = o' := by
  have apart {o o' : Nat} (h : acts[o]? = some .issue) (before : o < o') :
      (acts.take o).count .issue < (acts.take o').count .issue := by
    have grows := List.Sublist.count_le TokenAct.issue
      (List.take_sublist_take_left (l := acts) (Nat.succ_le_of_lt before))
    rw [List.take_add_one, h] at grows
    simp at grows
    omega
  rcases Nat.lt_trichotomy o o' with before | rfl | behind
  · exact absurd same (Nat.ne_of_lt (apart h before))
  · rfl
  · exact absurd same.symm (Nat.ne_of_lt (apart h' behind))

/-- One more act cancels the origin of the token that it names. -/
theorem raises_snoc : Raises (acts ++ [a]) o ↔
    Raises acts o ∨ ∃ k, a = .cancel k ∧ (origins acts)[k]? = some o := by
  constructor
  · rintro ⟨n, k, there, from_⟩
    rcases Nat.lt_or_ge n acts.length with before | behind
    · rw [List.getElem?_append_left before] at there
      rw [List.take_append_of_le_length (Nat.le_of_lt before)] at from_
      exact .inl ⟨n, k, there, from_⟩
    · obtain rfl : n = acts.length := by
        have inside := (List.getElem?_eq_some_iff.mp there).1
        rw [List.length_append, List.length_singleton] at inside
        omega
      rw [List.getElem?_concat_length] at there
      rw [List.take_left] at from_
      exact .inr ⟨k, Option.some.inj there, from_⟩
  · rintro (⟨n, k, there, from_⟩ | ⟨k, rfl, from_⟩)
    · have before := (List.getElem?_eq_some_iff.mp there).1
      refine ⟨n, k, ?_, ?_⟩
      · rwa [List.getElem?_append_left before]
      · rwa [List.take_append_of_le_length (Nat.le_of_lt before)]
    · exact ⟨acts.length, k, List.getElem?_concat_length, by rwa [List.take_left]⟩

theorem mem_origins_of_raises (h : Raises acts o) : o ∈ origins acts := by
  obtain ⟨n, k, -, from_⟩ := h
  have early := isPrefix_origins (acts.take n) (acts.drop n)
  rw [List.take_append_drop] at early
  exact early.subset (List.mem_of_getElem? from_)

/-- What was cancelled remains so. -/
theorem Cancels.append (h : Cancels acts o) (more : List TokenAct) : Cancels (acts ++ more) o := by
  rcases h with ⟨n, k, there, from_⟩ | ⟨n, later, there⟩
  · have before := (List.getElem?_eq_some_iff.mp there).1
    refine .inl ⟨n, k, ?_, ?_⟩
    · rwa [List.getElem?_append_left before]
    · rwa [List.take_append_of_le_length (Nat.le_of_lt before)]
  · have before := (List.getElem?_eq_some_iff.mp there).1
    exact .inr ⟨n, later, by rwa [List.getElem?_append_left before]⟩

end TokenAct

/-! ## tokens -/

namespace Context

open TokenAct

variable {c : Context} {acts : List TokenAct} {o : Nat}

/-- The epoch of a context. -/
def epoch (c : Context) : UInt64 := c.resources.cancellation.epoch

/-- The numbers of the tokens of a context that were cancelled. -/
def raised (c : Context) : List Nat := c.resources.cancellation.raised

/-- The token that an act issues. -/
def issuedBy (c : Context) (acts : List TokenAct) (o : Nat) : CancelToken where
  number := c.issued + (acts.take o).count .issue
  epoch := some (c.epoch + UInt64.ofNat ((acts.take o).count .cancelInFlight))

/-- No act changes what was issued before it. -/
theorem issuedBy_append (more : List TokenAct) (h : o ≤ acts.length) :
    c.issuedBy (acts ++ more) o = c.issuedBy acts o := by
  simp only [issuedBy, List.take_append_of_le_length h]

theorem map_issuedBy_snoc (a : TokenAct) :
    (origins acts).map (c.issuedBy (acts ++ [a])) = (origins acts).map (c.issuedBy acts) :=
  List.map_congr_left fun _ mem => issuedBy_append [a] (le_length_of_mem_origins mem)

/-- What a context and the tokens held are after some acts. -/
structure Acted (c : Context) (acts : List TokenAct) (d : Context) (held : List CancelToken) :
    Prop where
  held : held = (origins acts).map (c.issuedBy acts)
  issued : d.issued = c.issued + acts.count .issue
  epoch : d.epoch = c.epoch + UInt64.ofNat (acts.count .cancelInFlight)
  raised : ∀ x, x ∈ d.raised ↔ x ∈ c.raised ∨ ∃ o, Raises acts o ∧ x = (c.issuedBy acts o).number

section Acted

variable {d : Context} {held : List CancelToken} {a : TokenAct}

theorem Acted.issued_snoc (h : c.Acted acts d held) (other : a ≠ .issue) :
    d.issued = c.issued + (acts ++ [a]).count .issue := by
  have none_ : [a].count .issue = 0 := List.count_eq_zero_of_not_mem (by simpa using other.symm)
  rw [List.count_append, none_]
  exact h.issued

theorem Acted.epoch_snoc (h : c.Acted acts d held) (other : a ≠ .cancelInFlight) :
    d.epoch = c.epoch + UInt64.ofNat ((acts ++ [a]).count .cancelInFlight) := by
  have none_ : [a].count .cancelInFlight = 0 :=
    List.count_eq_zero_of_not_mem (by simpa using other.symm)
  rw [List.count_append, none_]
  exact h.epoch

/-- What one more act has to raise. -/
theorem Acted.raised_snoc (h : c.Acted acts d held) (a : TokenAct) (x : Nat) :
    (x ∈ c.raised ∨ ∃ o, Raises (acts ++ [a]) o ∧ x = (c.issuedBy (acts ++ [a]) o).number) ↔
      x ∈ d.raised ∨ ∃ k, a = .cancel k ∧ ∃ t ∈ held[k]?, x = t.number := by
  have early {o : Nat} (raises : Raises acts o) : c.issuedBy (acts ++ [a]) o = c.issuedBy acts o :=
    issuedBy_append [a] (le_length_of_mem_origins (mem_origins_of_raises raises))
  have named {k o : Nat} (from_ : (origins acts)[k]? = some o) :
      c.issuedBy (acts ++ [a]) o = c.issuedBy acts o :=
    issuedBy_append [a] (le_length_of_mem_origins (List.mem_of_getElem? from_))
  simp only [h.raised, raises_snoc, h.held, List.getElem?_map, Option.mem_def,
    Option.map_eq_some_iff]
  constructor
  · rintro (old | ⟨o, raises | ⟨k, rfl, from_⟩, rfl⟩)
    · exact .inl (.inl old)
    · exact .inl (.inr ⟨o, raises, by rw [early raises]⟩)
    · exact .inr ⟨k, rfl, _, ⟨o, from_, rfl⟩, by rw [named from_]⟩
  · rintro ((old | ⟨o, raises, rfl⟩) | ⟨k, rfl, -, ⟨o, from_, rfl⟩, rfl⟩)
    · exact .inl old
    · exact .inr ⟨o, .inl raises, by rw [early raises]⟩
    · exact .inr ⟨o, .inr ⟨k, rfl, from_⟩, by rw [named from_]⟩

/-- One more act. -/
theorem Acted.snoc (h : c.Acted acts d held) (a : TokenAct) :
    c.Acted (acts ++ [a]) (TokenAct.act (d, held) a).1 (TokenAct.act (d, held) a).2 := by
  have kept : (origins acts).map (c.issuedBy (acts ++ [a])) = held :=
    (map_issuedBy_snoc a).trans h.held.symm
  have raised := h.raised_snoc a
  cases a with
  | issue =>
      refine ⟨?_, ?_, h.epoch_snoc nofun, fun x => by rw [raised]; simp [TokenAct.act]; rfl⟩
      · have fresh : c.issuedBy (acts ++ [.issue]) acts.length = d.token.1 := by
          simp only [issuedBy, List.take_left, ← h.issued, ← h.epoch]
          rfl
        simp only [origins_snoc, extend, List.map_append, kept, List.map_singleton, fresh]
        rfl
      · rw [List.count_append, ← Nat.add_assoc, ← h.issued]
        rfl
  | copy k =>
      refine ⟨?_, h.issued_snoc nofun, h.epoch_snoc nofun, fun x => by rw [raised]; simp [TokenAct.act]⟩
      have copied : held[k]?.toList =
          (origins acts)[k]?.toList.map (c.issuedBy (acts ++ [.copy k])) := by
        rw [← kept, List.getElem?_map]
        cases (origins acts)[k]? <;> rfl
      simp only [origins_snoc, extend, List.map_append, kept, ← copied]
      rfl
  | cancel k =>
      have tokens : held = (origins (acts ++ [.cancel k])).map (c.issuedBy (acts ++ [.cancel k])) := by
        rw [origins_snoc]
        exact kept.symm
      cases found : held[k]? with
      | none =>
          simp only [TokenAct.act, found, Option.elim_none]
          refine ⟨tokens, h.issued_snoc nofun, h.epoch_snoc nofun, fun x => ?_⟩
          rw [raised]
          simp [found]
      | some t =>
          simp only [TokenAct.act, found, Option.elim_some]
          refine ⟨tokens, h.issued_snoc nofun, h.epoch_snoc nofun, fun x => ?_⟩
          rw [raised]
          change x ∈ t.number :: d.raised ↔ _
          simp [found, or_comm]
  | cancelInFlight =>
      refine ⟨?_, h.issued_snoc nofun, ?_, fun x => by rw [raised]; simp [TokenAct.act]; rfl⟩
      · rw [origins_snoc]
        exact kept.symm
      · rw [List.count_append, UInt64.ofNat_add, ← UInt64.add_assoc, ← h.epoch]
        rfl

/-- Any acts. -/
theorem acted (c : Context) (acts : List TokenAct) : c.Acted acts (c.after acts) (c.held acts) := by
  induction acts using List.reverseRecOn with
  | nil => exact ⟨rfl, rfl, by simp [after, Context.act], fun x => by simp [Raises, after, Context.act]⟩
  | append_singleton acts a ih =>
      have step : c.act (acts ++ [a]) = TokenAct.act (c.act acts) a := by
        simp [Context.act]
      simp only [after, held, step]
      exact ih.snoc a

end Acted

/-! ## which tokens are cancelled -/

/-- What was counted up to an act, and what after it. -/
theorem count_eq_add_drop (acts : List TokenAct) (o : Nat) :
    acts.count .cancelInFlight =
      (acts.take o).count .cancelInFlight + (acts.drop o).count .cancelInFlight := by
  rw [← List.count_append, List.take_append_drop]

/-- The epoch has moved on exactly if all that is in flight was cancelled after the token was issued. -/
theorem epoch_ne_iff (few : acts.count .cancelInFlight < 2 ^ 64) (origin : acts[o]? = some .issue) :
    c.epoch + UInt64.ofNat ((acts.take o).count .cancelInFlight) ≠
        c.epoch + UInt64.ofNat (acts.count .cancelInFlight) ↔
      ∃ n, o < n ∧ acts[n]? = some .cancelInFlight := by
  have parts := count_eq_add_drop acts o
  have same : c.epoch + UInt64.ofNat ((acts.take o).count .cancelInFlight) =
      c.epoch + UInt64.ofNat (acts.count .cancelInFlight) ↔
        (acts.drop o).count .cancelInFlight = 0 := by
    rw [UInt64.add_right_inj, ← UInt64.toNat_inj, UInt64.toNat_ofNat', UInt64.toNat_ofNat',
      Nat.mod_eq_of_lt (by omega), Nat.mod_eq_of_lt few]
    omega
  rw [ne_eq, same, List.count_eq_zero, not_not, List.mem_iff_getElem?]
  simp only [List.getElem?_drop]
  constructor
  · rintro ⟨m, there⟩
    refine ⟨o + m, ?_, there⟩
    have apart : m ≠ 0 := by
      rintro rfl
      simp [origin] at there
    omega
  · rintro ⟨n, later, there⟩
    exact ⟨n - o, by rwa [Nat.add_sub_cancel' (Nat.le_of_lt later)]⟩

/-- A token is cancelled exactly if it, or another one of its origin, was cancelled, or all that was in
flight after it was issued. -/
theorem isCancelled_iff (sane : c.resources.cancellation.Sane)
    (few : acts.count .cancelInFlight < 2 ^ 64) (from_ : o ∈ origins acts) :
    (c.after acts).isCancelled (c.issuedBy acts o) = true ↔ Cancels acts o := by
  obtain ⟨-, -, epoch, raised⟩ := c.acted acts
  have origin := issued_of_mem_origins from_
  have fresh : (c.issuedBy acts o).number ∉ c.raised := fun old => by
    have before : c.issued + _ < c.issued := sane.raised _ old
    omega
  have number : (c.issuedBy acts o).number ∈ (c.after acts).raised ↔ Raises acts o := by
    rw [raised, or_iff_right fresh]
    constructor
    · rintro ⟨o', raises, same⟩
      have origin' := issued_of_mem_origins (mem_origins_of_raises raises)
      rwa [count_issue_inj origin origin' (Nat.add_left_cancel same)]
    · exact fun raises => ⟨o, raises, rfl⟩
  have moved := epoch_ne_iff (c := c) few origin
  rw [← epoch] at moved
  simp only [isCancelled, Cancellation.isCancelled, Bool.or_eq_true, List.contains_iff_mem, Cancels,
    ← moved, ← number]
  simp [issuedBy, Context.raised, Context.epoch]

/-- So it is for each token that is held. -/
theorem forall₂_isCancelled_iff (sane : c.resources.cancellation.Sane)
    (few : acts.count .cancelInFlight < 2 ^ 64) :
    List.Forall₂ (fun origin t => (c.after acts).isCancelled t = true ↔ Cancels acts origin)
      (origins acts) (c.held acts) := by
  rw [(c.acted acts).held, List.forall₂_map_right_iff, List.forall₂_same]
  exact fun origin from_ => isCancelled_iff sane few from_

/-- Once a token is cancelled, it stays so. -/
theorem isCancelled_append (sane : c.resources.cancellation.Sane) {more : List TokenAct}
    (few : (acts ++ more).count .cancelInFlight < 2 ^ 64) {t : CancelToken} (there : t ∈ c.held acts)
    (cancelled : (c.after acts).isCancelled t = true) :
    (c.after (acts ++ more)).isCancelled t = true := by
  rw [(c.acted acts).held, List.mem_map] at there
  obtain ⟨origin, from_, rfl⟩ := there
  have fewer : acts.count .cancelInFlight < 2 ^ 64 := by
    rw [List.count_append] at few
    omega
  have cancels := (isCancelled_iff sane fewer from_).mp cancelled
  have still := (isPrefix_origins acts more).subset from_
  rw [← issuedBy_append more (le_length_of_mem_origins from_)]
  exact (isCancelled_iff sane few still).mpr (cancels.append more)

end Context

end HomCircuit
