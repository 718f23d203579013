/-!
# HomCircuit.Bytes

Byte plumbing over plain `List UInt8`: numbers as little-endian bytes and back.

```
littleEndian n v  =  v mod 256 :: littleEndian (n - 1) (v / 256)
```

* `littleEndian` — the `n` low bytes of a number, least significant first;
* `ofLittleEndian` — the number that a byte list stands for, its inverse on `n` bytes.
-/

namespace HomCircuit

/-- The `n` low bytes of `v`, least significant first. -/
def littleEndian : Nat → Nat → List UInt8
  | 0, _ => []
  | n + 1, v => UInt8.ofNat v :: littleEndian n (v / 256)

/-- The number whose bytes, least significant first, are given. -/
def ofLittleEndian : List UInt8 → Nat
  | [] => 0
  | b :: rest => b.toNat + 256 * ofLittleEndian rest

/-- The eight bytes of a 64-bit word, least significant first. -/
def UInt64.toBytes (w : UInt64) : List UInt8 := littleEndian 8 w.toNat

/-- The four bytes of a 32-bit word, least significant first. -/
def UInt32.toBytes (w : UInt32) : List UInt8 := littleEndian 4 w.toNat

/-- The UTF-8 bytes of a text. -/
def utf8Bytes (s : String) : List UInt8 := s.toUTF8.data.toList

/-! ## small laws -/

@[simp] theorem length_littleEndian (n v : Nat) : (littleEndian n v).length = n := by
  induction n generalizing v with
  | zero => rfl
  | succ n ih => simp [littleEndian, ih]

/-- One byte more. -/
theorem one_shiftLeft_byte (n : Nat) : 1 <<< (8 * (n + 1)) = 256 * 1 <<< (8 * n) := by
  simp only [Nat.shiftLeft_eq, Nat.mul_add, Nat.pow_add]
  omega

/-- Reading back the `n` low bytes of a number gives the number modulo that many bytes. -/
theorem ofLittleEndian_littleEndian (n v : Nat) :
    ofLittleEndian (littleEndian n v) = v % 1 <<< (8 * n) := by
  induction n generalizing v with
  | zero => simp [littleEndian, ofLittleEndian, Nat.mod_one]
  | succ n ih =>
    have low : (UInt8.ofNat v).toNat = v % 256 := by simp
    rw [littleEndian, ofLittleEndian, ih, low, one_shiftLeft_byte, Nat.mod_mul]

theorem ofLittleEndian_lt (bs : List UInt8) : ofLittleEndian bs < 1 <<< (8 * bs.length) := by
  induction bs with
  | nil => decide
  | cons b rest ih =>
    have := b.toNat_lt
    rw [ofLittleEndian, List.length_cons, one_shiftLeft_byte]
    omega

@[simp] theorem UInt64.length_toBytes (w : UInt64) : (UInt64.toBytes w).length = 8 :=
  length_littleEndian 8 _

@[simp] theorem UInt32.length_toBytes (w : UInt32) : (UInt32.toBytes w).length = 4 :=
  length_littleEndian 4 _

end HomCircuit
