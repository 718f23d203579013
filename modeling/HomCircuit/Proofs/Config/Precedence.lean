import Mathlib
import HomCircuit.Config.Load
import HomCircuit.Proofs.Except

/-!
# HomCircuit.Proofs.Config.Precedence

What decides each entry of a loaded configuration.

```
command line  >  environment  >  file
```

The highest layer with a text that reads decides. A text that does not read is passed over, so a
number that cannot be parsed leaves the layers below in place; a truth value, a level and a
selection read from any text.

* `Text.Writes`, `Text.unsigned?_eq_some_iff` — the numerals that override a number;
* `Decides` — what a list of layers decides over the value below them;
* `Layered` — every entry of a configuration with the layers that decide it;
* `Carries` — the settings of a context are the entries of a configuration;
* `load_layered` — a load succeeds with just the layered configuration, if that is valid, and its
  settings succeed and carry it.
-/

namespace HomCircuit

namespace Text

variable {cs ds : List Char} {c : Char} {acc d n : Nat} {s : String}

/-! ## numerals -/

/-- Characters that write a number in decimal, after any number of zeros. -/
def Numeral (cs : List Char) (n : Nat) : Prop :=
  ∃ zeros, cs = List.replicate zeros '0' ++ Nat.toDigits 10 n

/-- A text that writes a number: a numeral, after a plus or not. -/
def Writes (s : String) (n : Nat) : Prop :=
  ∃ cs, Numeral cs n ∧ (s.toList = cs ∨ s.toList = '+' :: cs)

theorem not_numeral_nil : ¬ Numeral [] n := by
  rintro ⟨zeros, eq⟩
  exact Nat.toDigits_ne_nil (List.append_eq_nil_iff.mp eq.symm).2

theorem numeral_singleton_iff : Numeral [c] n ↔ n < 10 ∧ c = n.digitChar := by
  constructor
  · rintro ⟨zeros, eq⟩
    by_cases small : n < 10
    · rw [Nat.toDigits_of_lt_base small] at eq
      have last := congrArg List.getLast? eq
      simp only [List.getLast?_singleton, List.getLast?_concat, Option.some.injEq] at last
      exact ⟨small, last⟩
    · rw [Nat.toDigits_of_base_le (by decide) (Nat.not_lt.mp small)] at eq
      have some_digit := List.length_pos_of_ne_nil (Nat.toDigits_ne_nil (n := n / 10) (b := 10))
      have short := congrArg List.length eq
      simp only [List.length_append, List.length_singleton] at short
      omega
  · rintro ⟨small, rfl⟩
    exact ⟨0, by rw [Nat.toDigits_of_lt_base small]; rfl⟩

/-- The last digit of a longer numeral follows a numeral of a tenth. -/
theorem numeral_concat_iff (long : cs ≠ []) :
    Numeral (cs ++ [c]) n ↔ Numeral cs (n / 10) ∧ c = (n % 10).digitChar := by
  by_cases small : n < 10
  · -- the characters before a single digit are zeros, and they write the zero that is a tenth of it
    have zero : n / 10 = 0 := Nat.div_eq_of_lt small
    rw [zero, Nat.mod_eq_of_lt small]
    constructor
    · rintro ⟨zeros, eq⟩
      rw [Nat.toDigits_of_lt_base small] at eq
      obtain ⟨rfl, last⟩ := List.append_inj' eq rfl
      obtain ⟨zeros, rfl⟩ := Nat.exists_eq_succ_of_ne_zero
        (fun none : zeros = 0 => long (by rw [none]; rfl))
      exact ⟨⟨zeros, List.replicate_succ'⟩, List.singleton_inj.mp last⟩
    · rintro ⟨⟨zeros, rfl⟩, rfl⟩
      refine ⟨zeros + 1, ?_⟩
      rw [Nat.toDigits_of_lt_base small, List.replicate_succ', Nat.toDigits_zero]
  · have split := Nat.toDigits_of_base_le (b := 10) (by decide) (Nat.not_lt.mp small)
    constructor
    · rintro ⟨zeros, eq⟩
      rw [split, ← List.append_assoc] at eq
      obtain ⟨front, last⟩ := List.append_inj' eq rfl
      exact ⟨⟨zeros, front⟩, List.singleton_inj.mp last⟩
    · rintro ⟨⟨zeros, rfl⟩, rfl⟩
      exact ⟨zeros, by rw [split, List.append_assoc]⟩

/-! ## what the reader of numbers accepts -/

theorem digit?_eq_some_iff : digit? c = some d ↔ d < 10 ∧ c = d.digitChar := by
  constructor
  · intro eq
    unfold digit? at eq
    split at eq
    · rename_i range
      obtain rfl := Option.some.inj eq
      have least : 48 ≤ c.toNat := range.1
      have most : c.toNat ≤ 57 := range.2
      refine ⟨by change c.toNat - 48 < 10; omega, Char.toNat_inj.mp ?_⟩
      change c.toNat = (c.toNat - 48).digitChar.toNat
      rw [Nat.toNat_digitChar_of_lt_ten (by omega)]
      omega
    · contradiction
  · rintro ⟨small, rfl⟩
    interval_cases d <;> decide

theorem digitsFrom_append :
    digitsFrom acc (cs ++ ds) = (digitsFrom acc cs).bind fun n => digitsFrom n ds := by
  induction cs generalizing acc with
  | nil => rfl
  | cons c cs ih =>
      simp only [List.cons_append, digitsFrom]
      cases digit? c with
      | none => rfl
      | some d => exact ih

theorem decimal?_singleton : decimal? [c] = digit? c := by
  simp only [decimal?, digitsFrom]
  cases digit? c with
  | none => rfl
  | some d => simp

theorem decimal?_concat (long : cs ≠ []) :
    decimal? (cs ++ [c]) = (decimal? cs).bind fun m => (digit? c).map (m * 10 + ·) := by
  obtain ⟨first, rest, rfl⟩ := List.exists_cons_of_ne_nil long
  change digitsFrom 0 (first :: rest ++ [c]) = _
  rw [digitsFrom_append]
  change _ = (digitsFrom 0 (first :: rest)).bind _
  congr 1
  funext m
  simp only [digitsFrom]
  cases digit? c <;> rfl

theorem decimal?_eq_some_iff : decimal? cs = some n ↔ Numeral cs n := by
  -- from the last digit on, since a numeral of `n` ends with the last digit of `n`
  induction cs using List.reverseRecOn generalizing n with
  | nil => exact ⟨fun none => by contradiction, fun nil => absurd nil not_numeral_nil⟩
  | append_singleton cs c ih =>
      by_cases long : cs = []
      · rw [long, List.nil_append, decimal?_singleton, digit?_eq_some_iff, numeral_singleton_iff]
      · rw [decimal?_concat long, numeral_concat_iff long]
        simp only [Option.bind_eq_some_iff, Option.map_eq_some_iff, ih, digit?_eq_some_iff]
        constructor
        · rintro ⟨m, front, d, ⟨small, rfl⟩, rfl⟩
          rw [show (m * 10 + d) / 10 = m by omega, show (m * 10 + d) % 10 = d by omega]
          exact ⟨front, rfl⟩
        · rintro ⟨front, rfl⟩
          exact ⟨n / 10, front, n % 10, ⟨Nat.mod_lt n (by decide), rfl⟩, Nat.div_add_mod' n 10⟩

theorem not_numeral_plus : ¬ Numeral ('+' :: cs) n := by
  intro numeral
  have reads : decimal? ('+' :: cs) = some n := decimal?_eq_some_iff.mpr numeral
  contradiction

/-- The texts that override a number are the numerals of 64 bits. -/
theorem unsigned?_eq_some_iff : unsigned? 64 s = some n ↔ Writes s n ∧ n < 2 ^ 64 := by
  have body : ∀ cs, ((decimal? cs).filter (· < 1 <<< 64)) = some n ↔ Numeral cs n ∧ n < 2 ^ 64 := by
    intro cs
    rw [Option.filter_eq_some_iff, decimal?_eq_some_iff, decide_eq_true_eq, Nat.one_shiftLeft]
  unfold unsigned? Writes
  split
  · rename_i rest plus
    rw [body, plus]
    refine and_congr_left fun _ => ⟨fun numeral => ⟨rest, numeral, .inr rfl⟩, ?_⟩
    rintro ⟨cs, numeral, rfl | eq⟩
    · exact absurd numeral not_numeral_plus
    · exact (List.cons.inj eq).2 ▸ numeral
  · rename_i unsigned
    rw [body]
    refine and_congr_left fun _ => ⟨fun numeral => ⟨_, numeral, .inl rfl⟩, ?_⟩
    rintro ⟨cs, numeral, rfl | eq⟩
    · exact numeral
    · exact absurd eq (unsigned cs)

end Text

namespace Config

/-! ## layers -/

/-- What layers decide over the value below them, from their texts, the highest first: the first
text that reads as a value. -/
inductive Decides {α : Type} (reads : String → α → Prop) (below : α) :
    List (Option String) → α → Prop
  | nothing : Decides reads below [] below
  | absent {lower a} : Decides reads below lower a → Decides reads below (none :: lower) a
  | unreadable {s lower a} : (∀ b, ¬ reads s b) → Decides reads below lower a →
      Decides reads below (some s :: lower) a
  | readable {s lower a} : reads s a → Decides reads below (some s :: lower) a

/-- A text that writes a number of 64 bits. -/
def ReadsNumber (s : String) (n : Nat) : Prop := Text.Writes s n ∧ n < 2 ^ 64

/-- A text that writes a seed. -/
def ReadsSeed (s : String) (w : UInt64) : Prop := Text.Writes s w.toNat

/-- Every text is a truth value. -/
def ReadsFlag (s : String) (b : Bool) : Prop :=
  b = true ↔ Text.lower s = "true" ∨ Text.lower s = "1" ∨ Text.lower s = "yes"

/-- Every text is a level, in lower case. -/
def ReadsLevel (s level : String) : Prop := level = Text.lower s

/-- Every text is the name of a policy. -/
def ReadsName (s name : String) : Prop := name = s

section

variable {α : Type} {below v a a' : α} {lower : List (Option String)}
  {reads : String → α → Prop} {read? : String → Option α}
  (reading : ∀ s a, read? s = some a ↔ reads s a)

include reading

/-- One more layer: its text decides if it reads, and what the layers below decide holds if not. -/
theorem Decides.cons (decides : Decides reads below lower v) (text : Option String) :
    Decides reads below (text :: lower) ((text.bind read?).getD v) := by
  cases text with
  | none => exact .absent decides
  | some s =>
      rw [Option.bind_some]
      cases result : read? s with
      | none =>
          refine .unreadable (fun b reads => ?_) decides
          exact Option.some_ne_none b (((reading s b).mpr reads).symm.trans result)
      | some a => exact .readable ((reading s a).mp result)

/-- Layers decide one value only. -/
theorem Decides.unique (first : Decides reads below lower a)
    (second : Decides reads below lower a') : a = a' := by
  induction first with
  | nothing =>
      cases second
      rfl
  | absent _ ih =>
      cases second with
      | absent rest => exact ih rest
  | unreadable fails _ ih =>
      cases second with
      | unreadable _ rest => exact ih rest
      | readable reads => exact absurd reads (fails _)
  | @readable s _ a here =>
      cases second with
      | unreadable fails _ => exact absurd here (fails a)
      | readable reads =>
          exact Option.some.inj (((reading s a).mpr here).symm.trans ((reading s a').mpr reads))

end

theorem readsNumber_iff (s : String) (n : Nat) : Text.unsigned? 64 s = some n ↔ ReadsNumber s n :=
  Text.unsigned?_eq_some_iff

theorem readsSeed_iff (s : String) (w : UInt64) :
    (Text.unsigned? 64 s).map UInt64.ofNat = some w ↔ ReadsSeed s w := by
  rw [Option.map_eq_some_iff]
  constructor
  · rintro ⟨n, read, rfl⟩
    obtain ⟨writes, bound⟩ := Text.unsigned?_eq_some_iff.mp read
    rwa [ReadsSeed, UInt64.toNat_ofNat_of_lt' bound]
  · intro writes
    exact ⟨w.toNat, Text.unsigned?_eq_some_iff.mpr ⟨writes, w.toNat_lt⟩, UInt64.ofNat_toNat⟩

theorem readsFlag_iff (s : String) (b : Bool) : some (Layer.isYes s) = some b ↔ ReadsFlag s b := by
  have yes : Layer.isYes s = true ↔
      Text.lower s = "true" ∨ Text.lower s = "1" ∨ Text.lower s = "yes" := by
    simp only [Layer.isYes, List.contains_iff_mem, List.mem_cons, List.not_mem_nil, or_false]
  rw [Option.some.injEq, ReadsFlag, ← yes, eq_comm, Bool.eq_iff_iff]

theorem readsLevel_iff (s level : String) :
    some (Text.lower s) = some level ↔ ReadsLevel s level := by
  rw [Option.some.injEq, ReadsLevel, eq_comm]

theorem readsName_iff (s name : String) : some s = some name ↔ ReadsName s name := by
  rw [Option.some.injEq, ReadsName, eq_comm]

section

variable {l : Layer} {name : String} {lower : List (Option String)}

theorem decides_number {below v : Nat} (h : Decides ReadsNumber below lower v) :
    Decides ReadsNumber below (l name :: lower) (l.number name v) := h.cons readsNumber_iff _

theorem decides_word {below v : UInt64} (h : Decides ReadsSeed below lower v) :
    Decides ReadsSeed below (l name :: lower) (l.word name v) := by
  rw [Layer.word, Option.map_bind]
  exact h.cons readsSeed_iff _

theorem decides_flag {below v : Bool} (h : Decides ReadsFlag below lower v) :
    Decides ReadsFlag below (l name :: lower) (l.flag name v) := by
  rw [Layer.flag, Option.map_eq_bind]
  exact h.cons readsFlag_iff _

theorem decides_lowered {below v : String} (h : Decides ReadsLevel below lower v) :
    Decides ReadsLevel below (l name :: lower) (l.lowered name v) := by
  rw [Layer.lowered, Option.map_eq_bind]
  exact h.cons readsLevel_iff _

theorem decides_text {below v : String} (h : Decides ReadsName below lower v) :
    Decides ReadsName below (l name :: lower) (l.text name v) := by
  have decides := h.cons readsName_iff (l name)
  rwa [Option.bind_fun_some] at decides

end

variable {content : Option (List UInt8)} {env args env' args' : Layer} {file c c' : Config}

/-! ## entries -/

/-- Every entry of a configuration with the layers that decide it over the entry of a file. -/
structure Layered (file : Config) (env args : Layer) (c : Config) : Prop where
  parallelism : Decides ReadsNumber file.scheduling.parallelism
    [args "parallelism", env "CIPHERFLOW_PARALLELISM"] c.scheduling.parallelism
  deterministic : Decides ReadsFlag file.scheduling.deterministic
    [args "deterministic", env "CIPHERFLOW_DETERMINISTIC"] c.scheduling.deterministic
  elide : Decides ReadsFlag file.scheduling.elide [args "elide_dead_nodes"] c.scheduling.elide
  cacheCapacity : Decides ReadsNumber file.keys.cacheCapacity
    [args "key_cache_capacity", env "CIPHERFLOW_KEY_CACHE_CAPACITY"] c.keys.cacheCapacity
  secret : Decides ReadsSeed file.keys.seed.secret [env "CIPHERFLOW_SECRET_SEED"]
    c.keys.seed.secret
  encryption : Decides ReadsSeed file.keys.seed.encryption [env "CIPHERFLOW_ENCRYPTION_SEED"]
    c.keys.seed.encryption
  enabled : Decides ReadsFlag file.accelerator.enabled
    [args "accelerator", env "CIPHERFLOW_ACCELERATOR"] c.accelerator.enabled
  deviceCount : Decides ReadsNumber file.accelerator.deviceCount [env "CIPHERFLOW_DEVICE_COUNT"]
    c.accelerator.deviceCount
  deviceMemory : c.accelerator.deviceMemory = file.accelerator.deviceMemory
  selection : Decides ReadsName file.accelerator.selection [args "device_selection"]
    c.accelerator.selection
  cpuFallback : Decides ReadsFlag file.accelerator.cpuFallback [args "cpu_fallback"]
    c.accelerator.cpuFallback
  simulation : Decides ReadsFlag file.simulation [args "simulation", env "CIPHERFLOW_SIMULATION"]
    c.simulation
  workers : Decides ReadsNumber file.distribution.workers [env "CIPHERFLOW_REMOTE_WORKERS"]
    c.distribution.workers
  channelCapacity : c.distribution.channelCapacity = file.distribution.channelCapacity
  ackTimeout : Decides ReadsNumber file.distribution.ackTimeout
    [args "remote_ack_timeout_ms", env "CIPHERFLOW_REMOTE_ACK_TIMEOUT_MS"] c.distribution.ackTimeout
  level : Decides ReadsLevel file.logging.level [args "log_level", env "CIPHERFLOW_LOG_LEVEL"]
    c.logging.level
  debugNames : c.logging.debugNames = file.logging.debugNames

/-- The names that a command line may use. -/
def argumentNames : List String :=
  ["parallelism", "deterministic", "elide_dead_nodes", "key_cache_capacity", "accelerator",
    "device_selection", "cpu_fallback", "simulation", "remote_ack_timeout_ms", "log_level"]

/-- The variables of the environment that may be used. -/
def variableNames : List String :=
  ["PARALLELISM", "DETERMINISTIC", "KEY_CACHE_CAPACITY", "SECRET_SEED", "ENCRYPTION_SEED",
    "ACCELERATOR", "DEVICE_COUNT", "SIMULATION", "REMOTE_WORKERS", "REMOTE_ACK_TIMEOUT_MS",
    "LOG_LEVEL"].map variableName

theorem layered_under (file : Config) (env args : Layer) :
    Layered file env args (under env args file) where
  parallelism := decides_number (decides_number .nothing)
  deterministic := decides_flag (decides_flag .nothing)
  elide := decides_flag .nothing
  cacheCapacity := decides_number (decides_number .nothing)
  secret := decides_word .nothing
  encryption := decides_word .nothing
  enabled := decides_flag (decides_flag .nothing)
  deviceCount := decides_number .nothing
  deviceMemory := rfl
  selection := decides_text .nothing
  cpuFallback := decides_flag .nothing
  simulation := decides_flag (decides_flag .nothing)
  workers := decides_number .nothing
  channelCapacity := rfl
  ackTimeout := decides_number (decides_number .nothing)
  level := decides_lowered (decides_lowered .nothing)
  debugNames := rfl

/-- The layers leave nothing open. -/
theorem Layered.unique (first : Layered file env args c) (second : Layered file env args c') :
    c = c' := by
  obtain ⟨⟨_, _, _⟩, ⟨_, _, _⟩, ⟨_, _, _, _, _⟩, _, ⟨_, _, _⟩, _, _⟩ := c
  obtain ⟨⟨_, _, _⟩, ⟨_, _, _⟩, ⟨_, _, _, _, _⟩, _, ⟨_, _, _⟩, _, _⟩ := c'
  simp only [Config.mk.injEq, Scheduling.mk.injEq, Keys.mk.injEq, KeySeed.mk.injEq,
    Accelerator.mk.injEq, Distribution.mk.injEq, Logging.mk.injEq]
  exact ⟨
    ⟨first.parallelism.unique readsNumber_iff second.parallelism,
      first.deterministic.unique readsFlag_iff second.deterministic,
      first.elide.unique readsFlag_iff second.elide⟩,
    ⟨first.cacheCapacity.unique readsNumber_iff second.cacheCapacity,
      first.secret.unique readsSeed_iff second.secret,
      first.encryption.unique readsSeed_iff second.encryption⟩,
    ⟨first.enabled.unique readsFlag_iff second.enabled,
      first.deviceCount.unique readsNumber_iff second.deviceCount,
      first.deviceMemory.trans second.deviceMemory.symm,
      first.selection.unique readsName_iff second.selection,
      first.cpuFallback.unique readsFlag_iff second.cpuFallback⟩,
    first.simulation.unique readsFlag_iff second.simulation,
    ⟨first.workers.unique readsNumber_iff second.workers,
      first.channelCapacity.trans second.channelCapacity.symm,
      first.ackTimeout.unique readsNumber_iff second.ackTimeout⟩,
    first.level.unique readsLevel_iff second.level,
    first.debugNames.trans second.debugNames.symm⟩

theorem layered_iff : Layered file env args c ↔ under env args file = c :=
  ⟨fun layered => (layered_under file env args).unique layered,
    fun eq => eq ▸ layered_under file env args⟩

/-- Only the listed names and variables are looked at. -/
theorem under_congr (given : ∀ name ∈ argumentNames, args' name = args name)
    (used : ∀ name ∈ variableNames, env' name = env name) :
    under env' args' file = under env args file := by
  have inEnvironment : underEnvironment env' file = underEnvironment env file := by
    simp only [variableNames, List.map_cons, List.map_nil, List.forall_mem_cons] at used
    simp only [underEnvironment, Layer.number, Layer.word, Layer.flag, Layer.lowered, used]
  simp only [argumentNames, List.forall_mem_cons] at given
  simp only [under, inEnvironment, underArguments, Layer.number, Layer.flag, Layer.lowered,
    Layer.text, given]

/-! ## settings -/

/-- The settings of a context that has the entries of a configuration. -/
structure Carries (c : Config) (o : ContextOptions) : Prop where
  parallelism : o.parallelism = c.scheduling.parallelism
  deterministic : o.deterministic = c.scheduling.deterministic
  elide : o.elide = c.scheduling.elide
  cacheCapacity : o.cacheCapacity = c.keys.cacheCapacity
  seed : o.seed = c.keys.seed
  accelerator : o.accelerator = c.accelerator.enabled
  deviceCount : o.deviceCount = c.accelerator.deviceCount
  deviceMemory : o.deviceMemory = c.accelerator.deviceMemory
  roundRobin : o.policy = .roundRobin ↔ c.accelerator.selection = "round_robin"
  leastLoaded : o.policy = .leastLoaded ↔ c.accelerator.selection = "least_loaded"
  cpuFallback : o.cpuFallback = c.accelerator.cpuFallback
  simulation : o.simulation = c.simulation
  remoteWorkers : o.remoteWorkers = c.distribution.workers
  channelCapacity : o.channelCapacity = c.distribution.channelCapacity
  ackTimeout : o.ackTimeout = c.distribution.ackTimeout

theorem problemIf_eq_nil_iff {bad : Prop} [Decidable bad] {p : Problem} :
    problemIf bad p = [] ↔ ¬ bad := by
  rw [problemIf, ite_eq_right_iff]
  exact imp_congr_right fun _ => by simp

theorem validate_eq_ok_iff : c.validate = .ok () ↔ c.problems = [] := by
  rw [validate]
  split <;> simp [*]

/-- A valid configuration names a policy, as settings name it. -/
theorem selection_of_validate (valid : c.validate = .ok ()) :
    c.accelerator.selection = "round_robin" ∨ c.accelerator.selection = "least_loaded" := by
  have none := validate_eq_ok_iff.mp valid
  simp only [problems, List.append_eq_nil_iff, problemIf_eq_nil_iff, and_assoc] at none
  obtain ⟨-, named, -, -, -, -, unlisted, -⟩ := none
  have listed : c.accelerator.selection ∈ selections := by
    by_contra other
    exact unlisted ⟨named, other⟩
  simpa [selections] using listed

/-- The second reader of names takes every name that is valid. -/
theorem parse_selection {name : String} (valid : name = "round_robin" ∨ name = "least_loaded") :
    ∃ policy, SelectionPolicy.parse name = .ok policy ∧
      (policy = .roundRobin ↔ name = "round_robin") ∧
      (policy = .leastLoaded ↔ name = "least_loaded") := by
  rcases valid with rfl | rfl
  · exact ⟨.roundRobin, by decide +kernel, by decide, by decide⟩
  · exact ⟨.leastLoaded, by decide +kernel, by decide, by decide⟩

theorem options_of_validate (valid : c.validate = .ok ()) :
    ∃ o, c.options = .ok o ∧ Carries c o := by
  obtain ⟨policy, parsed, roundRobin, leastLoaded⟩ := parse_selection (selection_of_validate valid)
  unfold options
  rw [parsed]
  exact ⟨_, rfl,
    { parallelism := rfl, deterministic := rfl, elide := rfl, cacheCapacity := rfl, seed := rfl
      accelerator := rfl, deviceCount := rfl, deviceMemory := rfl, roundRobin, leastLoaded
      cpuFallback := rfl, simulation := rfl, remoteWorkers := rfl, channelCapacity := rfl
      ackTimeout := rfl }⟩

theorem load_eq_ok_iff : load content env args = .ok c ↔
    ∃ file, ofFile content = .ok file ∧ under env args file = c ∧ c.validate = .ok () := by
  unfold load
  constructor
  · intro loaded
    obtain ⟨file, read, loaded⟩ := Except.exists_of_bind loaded
    obtain ⟨_, valid, loaded⟩ := Except.exists_of_bind loaded
    obtain rfl := Except.ok.inj loaded
    exact ⟨file, read, rfl, valid⟩
  · rintro ⟨file, read, rfl, valid⟩
    simp only [read, valid, bind, Except.bind]
    rfl

theorem load_congr (given : ∀ name ∈ argumentNames, args' name = args name)
    (used : ∀ name ∈ variableNames, env' name = env name) :
    load content env' args' = load content env args := by
  unfold load
  exact bind_congr fun file => by rw [under_congr given used]

/-- **Precedence.** A load gives a configuration just if the file describes one, each entry is what
the highest layer that reads decides over it, and the outcome is valid. The settings of a context
take every such configuration and carry its entries, and texts under other names change nothing. -/
theorem load_layered (content : Option (List UInt8)) (env args : Layer) :
    (∀ c, load content env args = .ok c ↔
      ∃ file, ofFile content = .ok file ∧ Layered file env args c ∧ c.validate = .ok ()) ∧
    (∀ c, load content env args = .ok c → ∃ o, c.options = .ok o ∧ Carries c o) ∧
    ∀ env' args', (∀ name ∈ variableNames, env' name = env name) →
      (∀ name ∈ argumentNames, args' name = args name) →
      load content env' args' = load content env args := by
  refine ⟨fun c => ?_, fun c loaded => ?_, fun env' args' used given => load_congr given used⟩
  · simp only [layered_iff]
    exact load_eq_ok_iff
  · obtain ⟨_, _, _, valid⟩ := load_eq_ok_iff.mp loaded
    exact options_of_validate valid

namespace Overridden

/-- A file with a number and a truth value. -/
def described : Option (List UInt8) :=
  some "[runtime]\nparallelism = 6\nelide_dead_nodes = false\n".toUTF8.toList

/-- Variables with a number, a truth value and a level. -/
def surroundings : Layer := fun name =>
  [("CIPHERFLOW_PARALLELISM", "+012"), ("CIPHERFLOW_SIMULATION", "Yes"),
    ("CIPHERFLOW_LOG_LEVEL", "Debug")].lookup name

/-- Arguments with a number that cannot be read, and a truth value that says no. -/
def line : Layer := fun name => [("parallelism", "ten"), ("simulation", "on")].lookup name

/-- The arguments with one more, under a name that is not used. -/
def longer : Layer := fun name => if name = "workers" then some "3" else line name

/-- The configuration in the end. -/
def loaded : Config :=
  { scheduling := { parallelism := 12, elide := false }
    logging := { level := "debug" } }

/-- The argument that cannot be read leaves the number of the environment, and the truth value that
says no hides the one below it. -/
theorem load_layered_overridden :
    load described surroundings line = .ok loaded ∧
      (∃ file, ofFile described = .ok file ∧ Layered file surroundings line loaded ∧
        loaded.validate = .ok ()) ∧
      (∃ o, loaded.options = .ok o ∧ Carries loaded o) ∧
      load described surroundings longer = load described surroundings line := by
  have loads : load described surroundings line = .ok loaded := by decide +kernel
  obtain ⟨layered, options, others⟩ := load_layered described surroundings line
  exact ⟨loads, (layered loaded).mp loads, options loaded loads,
    others surroundings longer (fun _ _ => rfl) (by decide +kernel)⟩

end Overridden

end Config

end HomCircuit
