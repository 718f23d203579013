/-!
# HomCircuit.Remote.TicketQueue

A queue in which everybody takes a number. Numbers are served in the order in which they were taken,
one at a time, each until its holder leaves.

```
served ≤ number of the holder < issued
```
-/

namespace HomCircuit

/-- How many numbers were taken, and how many holders have left. -/
structure TicketQueue where
  issued : Nat := 0
  served : Nat := 0
  deriving DecidableEq, Inhabited

namespace TicketQueue

/-- Takes the next number. -/
def join (q : TicketQueue) : Nat × TicketQueue := (q.issued, { q with issued := q.issued + 1 })

/-- Whether it is the turn of a number. -/
def serves (q : TicketQueue) (ticket : Nat) : Bool := q.served == ticket

/-- The holder of the number that is served leaves. -/
def leave (q : TicketQueue) : TicketQueue := { q with served := q.served + 1 }

/-- It is the turn of one number at a time. -/
theorem eq_of_serves {q : TicketQueue} {a b : Nat} (ha : q.serves a) (hb : q.serves b) : a = b := by
  simp only [serves, beq_iff_eq] at ha hb
  exact ha.symm.trans hb

end TicketQueue

end HomCircuit
