import HomCircuit.Hash

/-!
# HomCircuit.Random.ChaCha

A reproducible stream of words: ChaCha with eight rounds over a 256-bit key, a 64-bit block counter
from zero and no stream number.

* `block` — the sixteen output words of one counter value;
* `Generator` — a key, the next counter and the words not yet handed out;
* `Generator.next` — the next 64-bit word, whose low half comes first;
* `Generator.derive` — the generator for a purpose and three words.
-/

namespace HomCircuit.Random

/-! ## the block function -/

/-- The sixteen words that the rounds work on. -/
abbrev Block := Vector UInt32 16

/-- Rotation to the left by fewer than 32 bits. -/
def rotate (x n : UInt32) : UInt32 := (x <<< n) ||| (x >>> (32 - n))

/-- The quarter round on four words of a block. -/
def quarter (s : Block) (a b c d : Fin 16) : Block :=
  let s := s.set a (s[a] + s[b])
  let s := s.set d (rotate (s[d] ^^^ s[a]) 16)
  let s := s.set c (s[c] + s[d])
  let s := s.set b (rotate (s[b] ^^^ s[c]) 12)
  let s := s.set a (s[a] + s[b])
  let s := s.set d (rotate (s[d] ^^^ s[a]) 8)
  let s := s.set c (s[c] + s[d])
  s.set b (rotate (s[b] ^^^ s[c]) 7)

/-- Four quarter rounds on the columns, then four on the diagonals. -/
def doubleRound (s : Block) : Block :=
  let s := quarter s 0 4 8 12
  let s := quarter s 1 5 9 13
  let s := quarter s 2 6 10 14
  let s := quarter s 3 7 11 15
  let s := quarter s 0 5 10 15
  let s := quarter s 1 6 11 12
  let s := quarter s 2 7 8 13
  quarter s 3 4 9 14

/-- A key: the eight words after the constants. -/
abbrev StreamKey := Vector UInt32 8

/-- The block that the rounds start from. -/
def initial (key : StreamKey) (counter : UInt64) : Block :=
  #v[0x61707865, 0x3320646e, 0x79622d32, 0x6b206574,
    key[0], key[1], key[2], key[3], key[4], key[5], key[6], key[7],
    counter.toUInt32, (counter >>> 32).toUInt32, 0, 0]

/-- Eight rounds, then the starting block is added back. -/
def block (key : StreamKey) (counter : UInt64) : Block :=
  let start := initial key counter
  let mixed := doubleRound (doubleRound (doubleRound (doubleRound start)))
  Vector.zipWith (· + ·) mixed start

/-! ## the stream of words -/

/-- Consecutive pairs of 32-bit words as 64-bit words, low half first. -/
def pairWords : List UInt32 → List UInt64
  | low :: high :: rest => (low.toUInt64 ||| (high.toUInt64 <<< 32)) :: pairWords rest
  | _ => []

/-- A position in the stream of one key. -/
structure Generator where
  key : StreamKey
  counter : UInt64
  pending : List UInt64

/-- The next word of the stream. -/
def Generator.next (g : Generator) : UInt64 × Generator :=
  match g.pending with
  | w :: rest => (w, { g with pending := rest })
  | [] =>
    match pairWords (block g.key g.counter).toList with
    | w :: rest => (w, { g with counter := g.counter + 1, pending := rest })
    | [] => (0, { g with counter := g.counter + 1 })

/-- The next `n` words, put in reverse before `acc`. -/
def Generator.takeOnto : Nat → List UInt64 → Generator → List UInt64 × Generator
  | 0, acc, g => (acc, g)
  | n + 1, acc, g =>
    let (w, g) := g.next
    takeOnto n (w :: acc) g

/-- The next `n` words. -/
def Generator.take (n : Nat) (g : Generator) : List UInt64 × Generator :=
  let (words, g) := takeOnto n [] g
  (words.reverse, g)

/-- The start of the stream whose key is four 64-bit words. -/
def Generator.ofWords (a b c d : UInt64) : Generator :=
  { key := #v[a.toUInt32, (a >>> 32).toUInt32, b.toUInt32, (b >>> 32).toUInt32,
      c.toUInt32, (c >>> 32).toUInt32, d.toUInt32, (d >>> 32).toUInt32]
    counter := 0
    pending := [] }

/-- The stream for a purpose and three words: each word is mixed into the state, and four more
mixing steps give the key. -/
def Generator.derive (purpose : UInt64) (x y z : UInt64) : Generator :=
  let state := Hash.splitMix (Hash.splitMix (Hash.splitMix (purpose ^^^ x) ^^^ y) ^^^ z)
  let a := Hash.splitMix state
  let b := Hash.splitMix a
  let c := Hash.splitMix b
  let d := Hash.splitMix c
  ofWords a b c d

/-! ## small laws -/

theorem Generator.length_takeOnto (n : Nat) (acc : List UInt64) (g : Generator) :
    (takeOnto n acc g).1.length = n + acc.length := by
  induction n generalizing acc g with
  | zero => simp [takeOnto]
  | succ n ih =>
    simp only [takeOnto, ih, List.length_cons]
    omega

@[simp] theorem Generator.length_take (n : Nat) (g : Generator) : (g.take n).1.length = n := by
  simp [take, length_takeOnto]

end HomCircuit.Random
