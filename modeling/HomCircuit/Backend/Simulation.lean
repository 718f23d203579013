import HomCircuit.Value
import HomCircuit.Backend.Outcome

/-!
# HomCircuit.Backend.Simulation

Running operations on stand-ins: the message is computed in the clear modulo the plaintext modulus,
and a noise variance follows the operations.

```
add, sub      variances add                 lookup   encryption noise plus one key switch
mulPlain c    variance times c²             change   plus one key switch of the source
```

* `Simulation.encrypt`, `Simulation.fresh` — the stand-in for a fresh encryption;
* `Simulation.run` — one operation;
* `Simulation.margin` — how many deviations fit before decoding goes wrong.
-/

namespace HomCircuit.Simulation

/-- The square of a number. -/
def square (x : Float) : Float := x * x

/-- A remainder, which a modulus of zero has not. -/
def reduce (a modulus : UInt64) : Outcome RunError UInt64 :=
  if modulus = 0 then
    .crashed (some "attempt to calculate the remainder with a divisor of zero")
  else .done (a % modulus)

/-- A sum, which crashes where it does not fit into a word. -/
def sum (a b : UInt64) : Outcome RunError UInt64 :=
  if a.toNat + b.toNat < UInt64.size then .done (a + b)
  else .crashed (some "attempt to add with overflow")

/-- The difference of two messages, taken above the modulus so that it is never negative. -/
def difference (a b modulus : UInt64) : Outcome RunError UInt64 := do
  let above ← sum (← reduce a modulus) modulus
  reduce (above - (← reduce b modulus)) modulus

/-- Variance of the noise of a fresh encryption. -/
def encryptionVariance (p : Partition) : Float := square p.encryptionNoise.toFloat

/-- Variance that one key switch adds. -/
def keySwitchVariance (p : Partition) : Float :=
  p.keySwitch.level.toNat.toFloat * square p.lweNoise.toFloat

/-- The stand-in for a fresh encryption in a partition with plaintexts. -/
def encrypt (p : Partition) (message : UInt64) : Simulated :=
  ⟨message % p.plaintextModulus, encryptionVariance p⟩

/-- The stand-in for a fresh encryption. -/
def fresh (p : Partition) (message : UInt64) : Outcome RunError Simulated :=
  (reduce message p.plaintextModulus).map fun _ => encrypt p message

/-- Half the distance of neighbouring plaintexts in standard deviations. -/
def margin (s : Simulated) (p : Partition) : Float :=
  let halfStep := 0.5 / (2.0 * p.plaintextModulus.toFloat)
  if s.deviation == 0.0 then Float.ofBits Binary64.infinity.bits else halfStep / s.deviation

/-- An operation on stand-ins, in the partition of the node and that of its inputs. -/
def run (n : Node) (inputs : List Simulated) (p source : Partition) :
    Outcome RunError Simulated :=
  let a := inputs.getD 0 default
  let b := inputs.getD 1 default
  let m := p.plaintextModulus
  if inputs.length ≠ n.op.arity then
    .failed (.nodeExecution n.id
      s!"{n.op.name} takes {n.op.arity} inputs, got {inputs.length}")
  else
    match n.op with
    | .add => (reduce (a.shadow + b.shadow) m).map (⟨·, a.variance + b.variance⟩)
    | .sub => (difference a.shadow b.shadow m).map (⟨·, a.variance + b.variance⟩)
    | .neg => (reduce (m - a.shadow % m) m).map (⟨·, a.variance⟩)
    | .addPlain constant => (reduce (a.shadow + constant) m).map (⟨·, a.variance⟩)
    | .mulPlain constant =>
      (reduce (a.shadow * constant) m).map (⟨·, a.variance * square constant.toFloat⟩)
    | .lookup table =>
      match Primitive.checkTable table p with
      | .error e => .failed (.nodeExecution n.id e.message)
      | .ok () =>
        (reduce (Primitive.tableEntry table a.shadow) m).map
          (⟨·, encryptionVariance p + keySwitchVariance p⟩)
    | .changePartition _ =>
      (reduce a.shadow m).map (⟨·, a.variance + keySwitchVariance source⟩)
    | .identity => .done a

end HomCircuit.Simulation
