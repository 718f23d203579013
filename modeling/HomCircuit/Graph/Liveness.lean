import HomCircuit.Graph.Basic

/-!
# HomCircuit.Graph.Liveness

The nodes that contribute to some requested values: the producers of those values, their producers,
and so on.

* `Graph.markFrom` — a worklist that marks each node once, whatever its order;
* `Graph.liveNodes?` — one mark a node, absent when a requested slot does not exist;
* `Graph.orderOf?` — the dispatch order of marked nodes, absent when marks are missing.
-/

namespace HomCircuit.Graph

/-- One more mark leaves one node less without a mark. -/
theorem count_false_set_lt {live : List Bool} {i : Nat} (h : live[i]? = some false) :
    (live.set i true).count false < live.count false := by
  obtain ⟨inside, unmarked⟩ := List.getElem?_eq_some_iff.mp h
  have pos : 0 < live.count false := List.count_pos_iff.mpr (unmarked ▸ List.getElem_mem inside)
  rw [List.count_set inside, unmarked]
  show live.count false - 1 + 0 < live.count false
  omega

/-- Marks the nodes on a stack and everything that they read from. -/
def markFrom (g : Graph) (live : List Bool) : List Nat → List Bool
  | [] => live
  | i :: stack =>
    if live[i]? = some false then markFrom g (live.set i true) (g.producersOf i ++ stack)
    else markFrom g live stack
termination_by stack => (live.count false, stack.length)
decreasing_by
  · exact Prod.Lex.left _ _ (count_false_set_lt ‹_›)
  · exact Prod.Lex.right _ (Nat.lt_succ_self _)

/-- The marks of the nodes that contribute to the values in some slots. -/
def liveNodes (g : Graph) (slots : List Nat) : List Bool :=
  g.markFrom (List.replicate g.size false) (slots.filterMap g.producer?)

/-- The same, absent when a slot does not exist. -/
def liveNodes? (g : Graph) (slots : List Nat) : Option (List Bool) :=
  if slots.all (· < g.slotCount) then some (g.liveNodes slots) else none

/-- The dispatch order of marked nodes, absent when there are fewer marks than nodes. -/
def orderOf? (g : Graph) (live : List Bool) : Option (List Nat) :=
  if g.size ≤ live.length then some (g.dispatchOrder fun i => live.getD i false) else none

end HomCircuit.Graph
