import HomCircuit.Error

/-!
# HomCircuit.Schedule.Cancellation

Tokens that cancel calls.

A context has an epoch, which every cancellation of all that is in flight moves on. A token is
cancelled once it was raised, or once the epoch is no longer the one that it was made in. Copies of
a token share its number. A call may be handed a token by its caller; the token that the latest call
was handed is kept at hand.

* `Cancellation.issue`, `Cancellation.issueFree` — a token of the context, and one that observes no
  context;
* `Cancellation.raise`, `Cancellation.advance` — the two ways to cancel;
* `Cancellation.handOver`, `Cancellation.raiseHanded` — the token of the latest call;
* `Cancellation.isCancelled` — the test.
-/

namespace HomCircuit

/-- A token: its number and the epoch that it was made in, if it observes a context. -/
structure CancelToken where
  number : Nat
  epoch : Option UInt64
  deriving DecidableEq, Inhabited

/-- The epoch of a context, the tokens raised so far, and the one at hand. -/
structure Cancellation where
  epoch : UInt64 := 0
  issued : Nat := 0
  raised : List Nat := []
  /-- The token that the latest call was handed, if any. -/
  handed : Option CancelToken := none
  deriving Inhabited

namespace Cancellation

/-- A fresh token of the context. -/
def issue (c : Cancellation) : CancelToken × Cancellation :=
  (⟨c.issued, some c.epoch⟩, { c with issued := c.issued + 1 })

/-- A fresh token that observes no context. -/
def issueFree (c : Cancellation) : CancelToken × Cancellation :=
  (⟨c.issued, none⟩, { c with issued := c.issued + 1 })

/-- Cancels a token and its copies. -/
def raise (c : Cancellation) (t : CancelToken) : Cancellation :=
  { c with raised := t.number :: c.raised }

/-- A call begins, with or without a token of its caller. -/
def handOver (c : Cancellation) (t : Option CancelToken) : Cancellation := { c with handed := t }

/-- Cancels the token that the latest call was handed. -/
def raiseHanded (c : Cancellation) : Cancellation := c.handed.elim c c.raise

/-- Cancels all tokens of the context that were issued before. -/
def advance (c : Cancellation) : Cancellation := { c with epoch := c.epoch + 1 }

/-- Whether a token is cancelled. -/
def isCancelled (c : Cancellation) (t : CancelToken) : Bool :=
  c.raised.contains t.number || t.epoch.any (· != c.epoch)

end Cancellation

end HomCircuit
