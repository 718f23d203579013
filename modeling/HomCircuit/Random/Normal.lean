import HomCircuit.Random.ChaCha
import HomCircuit.Random.ZigguratTable

/-!
# HomCircuit.Random.Normal

Samples of the standard normal law by the ziggurat: a word picks a layer and a place in it, and
almost always that place is the answer; on the rim of a layer the density decides, and beyond the
widest layer the tail has a sampler of its own.

* `attempt` — one try, which accepts or not;
* `standard` — tries until one accepts.
-/

namespace HomCircuit.Random

open Ziggurat

/-- The right edge of the widest layer, where the tail begins. -/
def tailStart : Float := 3.654152885361008796

/-- The machine number in a table. -/
def tableEntry (table : Array UInt64) (i : Nat) : Float := Float.ofBits (table.getD i 0)

/-- A place in `[-1, 1)` from the high bits of a word. -/
def signedPlace (w : UInt64) : Float :=
  Float.ofBits ((w >>> 12) ||| ((1024 : UInt64) <<< 52)) - 3.0

/-- A number strictly between 0 and 1. -/
def openUnit (w : UInt64) : Float :=
  Float.ofBits ((w >>> 12) ||| ((1023 : UInt64) <<< 52)) - Float.ofBits 0x3fefffffffffffff

/-- A number in `[0, 1)`. -/
def unit (w : UInt64) : Float := (w >>> 11).toFloat * Float.ofBits 0x3ca0000000000000

/-- A sample beyond `tailStart`, on the side of `u`. -/
def tail (u : Float) : Nat → Generator → Float × Generator
  | 0, g => (tailStart, g)
  | fuel + 1, g =>
    let (a, g) := g.next
    let (b, g) := g.next
    let x := (openUnit a).log / tailStart
    let y := (openUnit b).log
    if -2.0 * y < x * x then tail u fuel g
    else (if u < 0.0 then x - tailStart else tailStart - x, g)

/-- One try: the sample, or nothing when it fell outside the curve. -/
def attempt (g : Generator) : Option Float × Generator :=
  let (w, g) := g.next
  let i := (w &&& 0xff).toNat
  let u := signedPlace w
  let x := u * tableEntry edge i
  if x.abs < tableEntry edge (i + 1) then (some x, g)
  else if i = 0 then
    let (z, g) := tail u 1000 g
    (some z, g)
  else
    let (v, g) := g.next
    let top := tableEntry density i
    let bottom := tableEntry density (i + 1)
    if bottom + (top - bottom) * unit v < (-x * x / 2.0).exp then (some x, g) else (none, g)

/-- A sample of the standard normal law. A try fails about once in eighty, so a thousand tries do
not run out. -/
def standard : Nat → Generator → Float × Generator
  | 0, g => (0.0, g)
  | fuel + 1, g =>
    match attempt g with
    | (some z, g) => (z, g)
    | (none, g) => standard fuel g

/-- A sample of the normal law around zero with the given deviation. -/
def normal (deviation : Float) (g : Generator) : Float × Generator :=
  let (z, g) := standard 1000 g
  (0.0 + deviation * z, g)

end HomCircuit.Random
