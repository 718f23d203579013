/-!
# HomCircuit.Text.Utf8

Reading bytes as UTF-8, one byte at a time, and where it fails.

```
00..7f                    one byte
c2..df  80..bf            two bytes
e0      a0..bf  80..bf    three bytes; ed is followed by 80..9f, e1..ec and ee..ef by 80..bf
f0      90..bf  80..bf²   four bytes; f4 is followed by 80..8f, f1..f3 by 80..bf
```

* `ofUtf8` — the text that bytes stand for;
* `Utf8Error` — the index of the character that fails, and how many bytes of it stand before the
  one that does not belong, unless the bytes just end.
-/

namespace HomCircuit.Text

/-- Where bytes are not UTF-8. -/
structure Utf8Error where
  index : Nat
  /-- Bytes that do not make a character; `none` if more might complete it. -/
  length : Option Nat
  deriving DecidableEq, Inhabited

/-- What an error says. -/
def Utf8Error.message (e : Utf8Error) : String :=
  match e.length with
  | some n => s!"invalid utf-8 sequence of {n} bytes from index {e.index}"
  | none => s!"incomplete utf-8 byte sequence from index {e.index}"

/-- A character of which some bytes are read. -/
structure Pending where
  start : Nat
  read : Nat
  /-- Bytes to come, and the range of the next one. -/
  more : Nat
  low : Nat := 0x80
  high : Nat := 0xbf
  value : Nat
  deriving DecidableEq, Inhabited

/-- The character that a first byte of several begins at an index. -/
def begin? (index b : Nat) : Option Pending :=
  if b < 0xc2 ∨ 0xf4 < b then none
  else if b < 0xe0 then some { start := index, read := 1, more := 1, value := b - 0xc0 }
  else if b < 0xf0 then
    some { start := index, read := 1, more := 2, value := b - 0xe0
           low := if b = 0xe0 then 0xa0 else 0x80
           high := if b = 0xed then 0x9f else 0xbf }
  else
    some { start := index, read := 1, more := 3, value := b - 0xf0
           low := if b = 0xf0 then 0x90 else 0x80
           high := if b = 0xf4 then 0x8f else 0xbf }

/-- The characters that bytes from an index on stand for, after those of a pending character. -/
def charsFrom (index : Nat) : Option Pending → List UInt8 → Except Utf8Error (List Char)
  | none, [] => .ok []
  | some p, [] => .error ⟨p.start, none⟩
  | none, b :: rest =>
    if b.toNat < 0x80 then (charsFrom (index + 1) none rest).map (Char.ofNat b.toNat :: ·)
    else
      match begin? index b.toNat with
      | none => .error ⟨index, some 1⟩
      | some p => charsFrom (index + 1) (some p) rest
  | some p, b :: rest =>
    if b.toNat < p.low ∨ p.high < b.toNat then .error ⟨p.start, some p.read⟩
    else
      let value := p.value * 64 + (b.toNat - 0x80)
      if p.more ≤ 1 then (charsFrom (index + 1) none rest).map (Char.ofNat value :: ·)
      else
        charsFrom (index + 1)
          (some { start := p.start, read := p.read + 1, more := p.more - 1, value }) rest

/-- The text that bytes stand for. -/
def ofUtf8 (bs : List UInt8) : Except Utf8Error String := (charsFrom 0 none bs).map String.ofList

end HomCircuit.Text
