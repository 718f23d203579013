import HomCircuit.Config.Basic
import HomCircuit.Text.LowerCase
import HomCircuit.Text.Unsigned

/-!
# HomCircuit.Config.Layers

Texts that override a configuration: the environment over the file, the command line over both.

* a number is overridden by a text that writes one of 64 bits, and by no other text;
* a truth value is overridden by any text, and `true`, `1` and `yes` in any case mean true;
* a log level is overridden by any text, in lower case;
* a selection policy is overridden by any text, as it stands.
-/

namespace HomCircuit.Config

/-- The texts of a layer by their names. -/
abbrev Layer := String → Option String

namespace Layer

/-- A number under a layer. -/
def number (l : Layer) (name : String) (below : Nat) : Nat :=
  ((l name).bind (Text.unsigned? 64)).getD below

/-- A seed under a layer. -/
def word (l : Layer) (name : String) (below : UInt64) : UInt64 :=
  (((l name).bind (Text.unsigned? 64)).map UInt64.ofNat).getD below

/-- Whether a text means true. -/
def isYes (s : String) : Bool := ["true", "1", "yes"].contains (Text.lower s)

/-- A truth value under a layer. -/
def flag (l : Layer) (name : String) (below : Bool) : Bool := ((l name).map isYes).getD below

/-- A text in lower case under a layer. -/
def lowered (l : Layer) (name : String) (below : String) : String :=
  ((l name).map Text.lower).getD below

/-- A text under a layer. -/
def text (l : Layer) (name : String) (below : String) : String := (l name).getD below

end Layer

/-- The name of an environment variable of this program. -/
def variableName (name : String) : String := "CIPHERFLOW_" ++ name

/-- A configuration under the environment. -/
def underEnvironment (env : Layer) (c : Config) : Config :=
  let l : Layer := fun name => env (variableName name)
  { c with
    scheduling := { c.scheduling with
      parallelism := l.number "PARALLELISM" c.scheduling.parallelism
      deterministic := l.flag "DETERMINISTIC" c.scheduling.deterministic }
    keys :=
      { cacheCapacity := l.number "KEY_CACHE_CAPACITY" c.keys.cacheCapacity
        seed :=
          { secret := l.word "SECRET_SEED" c.keys.seed.secret
            encryption := l.word "ENCRYPTION_SEED" c.keys.seed.encryption } }
    accelerator := { c.accelerator with
      enabled := l.flag "ACCELERATOR" c.accelerator.enabled
      deviceCount := l.number "DEVICE_COUNT" c.accelerator.deviceCount }
    simulation := l.flag "SIMULATION" c.simulation
    distribution := { c.distribution with
      workers := l.number "REMOTE_WORKERS" c.distribution.workers
      ackTimeout := l.number "REMOTE_ACK_TIMEOUT_MS" c.distribution.ackTimeout }
    logging := { c.logging with level := l.lowered "LOG_LEVEL" c.logging.level } }

/-- A configuration under the arguments of a command line. -/
def underArguments (l : Layer) (c : Config) : Config :=
  { c with
    scheduling :=
      { parallelism := l.number "parallelism" c.scheduling.parallelism
        deterministic := l.flag "deterministic" c.scheduling.deterministic
        elide := l.flag "elide_dead_nodes" c.scheduling.elide }
    keys := { c.keys with
      cacheCapacity := l.number "key_cache_capacity" c.keys.cacheCapacity }
    accelerator := { c.accelerator with
      enabled := l.flag "accelerator" c.accelerator.enabled
      selection := l.text "device_selection" c.accelerator.selection
      cpuFallback := l.flag "cpu_fallback" c.accelerator.cpuFallback }
    simulation := l.flag "simulation" c.simulation
    distribution := { c.distribution with
      ackTimeout := l.number "remote_ack_timeout_ms" c.distribution.ackTimeout }
    logging := { c.logging with level := l.lowered "log_level" c.logging.level } }

end HomCircuit.Config
