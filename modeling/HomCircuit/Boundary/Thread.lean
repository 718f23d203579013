import HomCircuit.Boundary.Entry

/-!
# HomCircuit.Boundary.Thread

Calls of entry points one after the other, by threads of a foreign caller.

* `Entry` — a call on a context, `Call` — any call;
* `World` — the handles that were given out, and the text of the last fault of each thread;
* `World.step`, `World.run` — one call, and any number of them.
-/

namespace HomCircuit.Boundary

/-- How calls of programs answer. -/
abbrev Answering :=
  Program → List Value → Context → Except RunError (List Value) × Trace × Context

/-- Entry points that work on a context. -/
inductive Entry
  | register (name : Option (List UInt8)) (lweDim glweDim polySize : UInt64)
  | ciphertextLength (id : PartitionId)
  | encrypt (id : PartitionId) (message nonce : UInt64)
  | decrypt (id : PartitionId) (input : Words)
  | add (id : PartitionId) (lhs rhs : Words)
  | neg (id : PartitionId) (input : Words)
  | mulPlain (id : PartitionId) (input : Words) (constant : UInt64)
  | lookUp (id : PartitionId) (input table : Words)
  | callProgram (program : Option Nat) (inputs : Words) (answering : Answering)

/-- Calls of a foreign caller, with handles as numbers. -/
inductive Call
  | createContext (parallelism : Nat) (flags : UInt32) (cacheCapacity : Nat) (place : Bool)
  | destroyContext (context : Nat)
  | loadProgram (document : Option (List UInt8)) (place : Bool)
  | freeProgram (program : Nat)
  | enter (context : Option Nat) (out : Words) (entry : Entry)

/-- Whether there is a place for the output. -/
def Body.place : Body Bool := do
  match (← get).out with
  | .null _ => return false
  | .stored _ => return true

/-- Writes a number, which is found if there is a place for it. -/
def tell {α : Type} (word : α → UInt64) (number : Bool → Body α) : Body Unit := do
  Body.write 0 [word (← number (← Body.place))]

/-- What the caller has: contexts and programs that were not released, and for each thread the text of
its last fault. -/
structure World where
  contexts : List (Option Context) := []
  programs : List (Option Program) := []
  lastFault : Nat → Option String := fun _ => none

namespace World

/-- The context of a handle. One that was released is not to be used again, and is taken for null. -/
def context? (w : World) (handle : Option Nat) : Option Context :=
  handle.bind fun i => w.contexts[i]?.join

/-- The program of a handle. -/
def program? (w : World) (handle : Option Nat) : Option Program :=
  handle.bind fun i => w.programs[i]?.join

/-- The steps of a call on a context. Numbers are written as words. -/
def body (w : World) : Entry → Body Unit
  | .register name lweDim glweDim polySize =>
    tell (fun id => id.index.toUInt64) (register name lweDim glweDim polySize)
  | .ciphertextLength id => tell UInt64.ofNat (ciphertextLength id)
  | .encrypt id message nonce => encrypt id message nonce
  | .decrypt id input => tell (fun message => message) (decrypt id input)
  | .add id lhs rhs => add id lhs rhs
  | .neg id input => neg id input
  | .mulPlain id input constant => mulPlain id input constant
  | .lookUp id input table => lookUp id input table
  | .callProgram handle inputs answering =>
    match w.program? handle with
    | none => callProgram none inputs
    | some p => callBy p (answering p) inputs

/-- The text of a fault is kept for the thread. -/
def note (w : World) (thread : Nat) (fault : Option Fault) : World :=
  { w with lastFault := fun t => if t = thread then noteFault (w.lastFault t) fault else w.lastFault t }

/-- One call by a thread, and why it failed. -/
def step (w : World) (thread : Nat) : Call → Option Fault × World
  | .createContext parallelism flags cacheCapacity place =>
    match Boundary.createContext parallelism flags cacheCapacity place with
    | .error f => (some f, w.note thread (some f))
    | .ok c => (none, { w with contexts := w.contexts ++ [some c] })
  | .destroyContext i => (none, { w with contexts := w.contexts.set i none })
  | .loadProgram document place =>
    match Boundary.loadProgram document place with
    | .error f => (some f, w.note thread (some f))
    | .ok p => (none, { w with programs := w.programs ++ [some p] })
  | .freeProgram i => (none, { w with programs := w.programs.set i none })
  | .enter handle out entry =>
    let reply := Boundary.enter (w.context? handle) out (w.body entry)
    let fault := reply.fault?
    (fault, { w.note thread fault with
      contexts := handle.elim w.contexts fun i => w.contexts.set i reply.context })

/-- Calls one after the other, each by a thread, and why each of them failed. -/
def run (w : World) : List (Nat × Call) → List (Nat × Option Fault) × World
  | [] => ([], w)
  | (thread, call) :: rest =>
    let (fault, w) := w.step thread call
    let (faults, w) := run w rest
    ((thread, fault) :: faults, w)

end World

end HomCircuit.Boundary
