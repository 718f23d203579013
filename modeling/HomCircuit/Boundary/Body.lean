import HomCircuit.Boundary.Status
import HomCircuit.Context.Call

/-!
# HomCircuit.Boundary.Body

What entry points for foreign callers are made of. A caller hands over places in its memory, any of
which may be null, and is told a status; the text of its last fault is kept for it.

* `Fault` — a status other than success, with a text;
* `Words` — words in the caller's memory;
* `Body` — the steps of an entry point, which read and change a context and write to the caller's
  output; a fault keeps what was changed and written before it.
-/

namespace HomCircuit.Boundary

/-- Why a call fails. -/
structure Fault where
  status : Status
  message : String
  failed : status ≠ .ok := by decide
  deriving DecidableEq

namespace Fault

/-- The fault that an error stands for. -/
def ofError (e : RunError) : Fault := ⟨e.status, e.message, e.status_ne_ok⟩

/-- A place that must not be null. -/
def null (what : String) : Fault :=
  { status := .nullPointer, message := s!"{what} is null" }

/-- A handle that must not be null. -/
def handle (what : String) : Fault :=
  { status := .invalidHandle, message := s!"{what} handle is null" }

/-- An argument that makes no sense. -/
def argument (message : String) : Fault := { status := .invalidArgument, message }

/-- A crash of an entry point. -/
def crash (entry reason : String) : Fault :=
  { status := .panic, message := s!"panic in {entry}: {reason}" }

/-- The text that is kept for the caller. A zero character would end it, so a space stands for
each. -/
def text (f : Fault) : String :=
  String.ofList (f.message.toList.map fun c => if c = '\x00' then ' ' else c)

end Fault

/-- The text of the last fault after one more call. -/
def noteFault (last : Option String) : Option Fault → Option String
  | none => last
  | some f => some f.text

/-- Words in the caller's memory. -/
inductive Words
  /-- A null place that is said to hold so many. -/
  | null (length : Nat)
  | stored (words : List UInt64)
  deriving DecidableEq, Inhabited

/-- The words that may be read or written; a null place holds none, and must not be said to hold
more. -/
def Words.get (what : String) : Words → Except Fault (List UInt64)
  | .null length => if length = 0 then .ok [] else .error (.null what)
  | .stored words => .ok words

/-- What an entry point works on. -/
structure Scene where
  context : Context
  out : Words

/-- The steps of an entry point. -/
abbrev Body := ExceptT Fault (StateM Scene)

namespace Body

/-- The result of something that may fail. -/
def lift {α : Type} (r : Except Fault α) : Body α := ExceptT.mk (pure r)

/-- The result of something that may fail with an error of the library. -/
def liftRun {α : Type} (r : Except RunError α) : Body α := lift (r.mapError .ofError)

/-- Something done with the context. -/
def inContext {α : Type} (act : Context → Except RunError α × Context) : Body α := do
  let s ← get
  let (r, context) := act s.context
  set { s with context }
  liftRun r

/-- The context as it is. -/
def context : Body Context := do return (← get).context

/-- The words of the output as they are. -/
def output (what : String) : Body (List UInt64) := do lift ((← get).out.get what)

/-- Writes words over those of the output from an offset on. -/
def write (offset : Nat) (words : List UInt64) : Body Unit :=
  modify fun s =>
    match s.out with
    | .null _ => s
    | .stored old =>
      { s with out := .stored (old.take offset ++ words ++ old.drop (offset + words.length)) }

/-- Refuses a buffer of the wrong length. -/
def checkLength (what : String) (expected actual : Nat) : Body Unit :=
  if expected = actual then pure () else liftRun (.error (.bufferShape what expected actual))

/-- A partition registered with the context. -/
def partition (id : PartitionId) : Body Partition := do
  match (← context).partitions.get? id with
  | some p => return p
  | none => liftRun (.error (.unknownPartition id.label))

end Body

/-- What a call leaves behind. -/
structure Reply (α : Type) where
  result : Except Fault α
  out : Words
  context : Option Context

namespace Reply

variable {α : Type}

/-- Why the call failed. -/
def fault? (r : Reply α) : Option Fault :=
  match r.result with
  | .ok _ => none
  | .error f => some f

/-- The outcome that the caller is told. -/
def status (r : Reply α) : Status := r.fault?.elim .ok Fault.status

end Reply

/-- Runs the steps of an entry point on a context, or on none if its handle is null. -/
def enter {α : Type} (context : Option Context) (out : Words) (body : Body α) : Reply α :=
  match context with
  | none => { result := .error (.handle "context"), out, context }
  | some c =>
    let (result, s) := body.run.run { context := c, out }
    { result, out := s.out, context := some s.context }

end HomCircuit.Boundary
