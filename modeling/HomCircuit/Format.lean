import HomCircuit.Bytes
import HomCircuit.Binary64

/-!
# HomCircuit.Format

Binary formats as a writer and a reader of one value. A reader takes what it needs from the front
and hands back the rest, so formats compose by concatenation.

```
number    fixed-width little-endian          list   64-bit length, then the members
text      64-bit length, then UTF-8 bytes     pair   one after the other
optional  one byte 0 or 1, then the value     case   its number in four bytes, then its content
```

* `Format.Exact` — what a format promises: a written value is read back from the front of
  whatever follows it.
-/

namespace HomCircuit

/-- A way to write a value as bytes and to read one from the front of some bytes. -/
structure Format (α : Type) where
  write : α → List UInt8
  read : List UInt8 → Option (α × List UInt8)

namespace Format

variable {α β : Type}

/-- A written value is read back, whatever bytes follow it. -/
def Exact (f : Format α) : Prop :=
  ∀ a rest, f.read (f.write a ++ rest) = some (a, rest)

/-! ## numbers -/

/-- The first `n` bytes and the rest, if there are that many. -/
def splitExactly (n : Nat) (bs : List UInt8) : Option (List UInt8 × List UInt8) :=
  if (bs.take n).length = n then some (bs.take n, bs.drop n) else none

/-- One byte. -/
def byte : Format UInt8 where
  write b := [b]
  read
    | b :: rest => some (b, rest)
    | [] => none

/-- A 32-bit number in four bytes. -/
def word32 : Format UInt32 where
  write := UInt32.toBytes
  read bs := (splitExactly 4 bs).map fun (front, rest) => (UInt32.ofNat (ofLittleEndian front), rest)

/-- A 64-bit number in eight bytes. -/
def word64 : Format UInt64 where
  write := UInt64.toBytes
  read bs := (splitExactly 8 bs).map fun (front, rest) => (UInt64.ofNat (ofLittleEndian front), rest)

/-- A binary64 number by its bits. -/
def binary64 : Format Binary64 where
  write x := word64.write x.bits
  read bs := (word64.read bs).map fun (w, rest) => (⟨w⟩, rest)

/-! ## combinations -/

/-- One value after another. -/
def pair (f : Format α) (g : Format β) : Format (α × β) where
  write p := f.write p.1 ++ g.write p.2
  read bs :=
    match f.read bs with
    | none => none
    | some (a, rest) => (g.read rest).map fun (b, rest) => ((a, b), rest)

/-- A format for values that another format's values stand for. -/
def via (f : Format α) (parts : β → α) (build : α → β) : Format β where
  write b := f.write (parts b)
  read bs := (f.read bs).map fun (a, rest) => (build a, rest)

/-- `n` values in a row, put in reverse before `acc`. -/
def readMany (f : Format α) : Nat → List α → List UInt8 → Option (List α × List UInt8)
  | 0, acc, bs => some (acc.reverse, bs)
  | n + 1, acc, bs =>
    match f.read bs with
    | none => none
    | some (a, rest) => readMany f n (a :: acc) rest

/-- A list: its length as a 64-bit number, then its members. -/
def list (f : Format α) : Format (List α) where
  write as := word64.write (UInt64.ofNat as.length) ++ as.flatMap f.write
  read bs :=
    match word64.read bs with
    | none => none
    | some (n, rest) => readMany f n.toNat [] rest

/-- A text: the number of its UTF-8 bytes, then the bytes. -/
def text : Format String where
  write s := word64.write (UInt64.ofNat (utf8Bytes s).length) ++ utf8Bytes s
  read bs :=
    match word64.read bs with
    | none => none
    | some (n, rest) =>
      match splitExactly n.toNat rest with
      | none => none
      | some (front, rest) =>
        (String.fromUTF8? ⟨front.toArray⟩).map fun s => (s, rest)

/-- A value that may be absent: a byte 0, or a byte 1 and the value. -/
def optional (f : Format α) : Format (Option α) where
  write
    | none => [0]
    | some a => 1 :: f.write a
  read
    | 0 :: rest => some (none, rest)
    | 1 :: rest => (f.read rest).map fun (a, rest) => (some a, rest)
    | _ => none

/-- A value that takes no bytes. -/
def constant (a : α) : Format α where
  write _ := []
  read bs := some (a, bs)

/-- A value of one of several cases: the number of its case, then what the format of that case
writes. Numbers without a case are refused. -/
def tagged (tag : α → UInt32) (cases : UInt32 → Option (Format α)) : Format α where
  write a := word32.write (tag a) ++ (cases (tag a)).elim [] (·.write a)
  read bs :=
    match word32.read bs with
    | none => none
    | some (t, rest) => cases t >>= fun f => f.read rest

end Format

end HomCircuit
