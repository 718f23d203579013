import HomCircuit.Primitive

/-!
# HomCircuit.Backend.Outcome

What running an operation may come to, and what an implementation of the operations is.

* `Outcome` — a result, an error, or a crash with or without a text;
* `Primitives` — an implementation: what an operation gives, and which signals it sends while it
  runs;
* `Primitives.reference` — the reference arithmetic, which sends none.
-/

namespace HomCircuit

/-- A result, an error, or a crash whose text may be missing. -/
inductive Outcome (ε α : Type)
  | done (a : α)
  | failed (e : ε)
  | crashed (text : Option String)

namespace Outcome

variable {ε α β : Type}

/-- An outcome without a crash. -/
def ofExcept : Except ε α → Outcome ε α
  | .ok a => .done a
  | .error e => .failed e

/-- The result changed. -/
def map (f : α → β) : Outcome ε α → Outcome ε β
  | .done a => .done (f a)
  | .failed e => .failed e
  | .crashed text => .crashed text

/-- What follows on a result. -/
def bind (o : Outcome ε α) (next : α → Outcome ε β) : Outcome ε β :=
  match o with
  | .done a => next a
  | .failed e => .failed e
  | .crashed text => .crashed text

instance : Monad (Outcome ε) where
  pure := .done
  bind := bind

/-- The error changed. -/
def mapError {ε' : Type} (f : ε → ε') : Outcome ε α → Outcome ε' α
  | .done a => .done a
  | .failed e => .failed (f e)
  | .crashed text => .crashed text

end Outcome

/-- What an operation may do to calls, among them the one that it runs in. -/
inductive Signal
  /-- The token that the latest call was handed is raised, if there was one. -/
  | cancelHanded
  /-- Everything in flight in the context is cancelled. -/
  | cancelInFlight
  deriving DecidableEq

/-- An implementation of the operations. -/
structure Primitives where
  name : String
  run : Operation → List Ciphertext → OperationKeys → UInt64 → Outcome PrimitiveError Ciphertext
  /-- Signals sent before the result is there. -/
  signals : Operation → List Signal := fun _ => []
  /-- Milliseconds that an operation takes. -/
  delay : Operation → Nat := fun _ => 0

/-- The reference arithmetic. -/
def Primitives.reference : Primitives where
  name := referenceName
  run op inputs keys nonce := .ofExcept (Primitive.run op inputs keys nonce)

instance : Inhabited Primitives := ⟨.reference⟩

/-- One call of an operation: its name and nonce. -/
structure PrimitiveCall where
  op : Operation
  nonce : UInt64
  deriving DecidableEq

end HomCircuit
