/-!
Contract: numbers as bytes, in two orders.

`ByteOrder.write` and `ByteOrder.read` are inverse on patterns of the given width.
The order of the host is the little one.
-/

namespace ObjectModel

inductive ByteOrder where
  /-- The least significant byte first. -/
  | little
  /-- The most significant byte first. -/
  | big
  /-- The order of the host. -/
  | native
deriving DecidableEq, Repr

namespace Bytes

/-- The lowest `width` bytes of a number, the least significant one first. -/
def ofNat : (width : Nat) → (number : Nat) → List UInt8
  | 0, _ => []
  | width + 1, number => UInt8.ofNat number :: ofNat width (number / 256)

/-- The number whose bytes these are, the least significant one first. -/
def toNat : List UInt8 → Nat
  | [] => 0
  | byte :: rest => byte.toNat + 256 * toNat rest

@[simp] theorem length_ofNat (width number : Nat) : (ofNat width number).length = width := by
  induction width generalizing number with
  | zero => rfl
  | succ width ih => simp [ofNat, ih]

theorem toNat_lt (bytes : List UInt8) : toNat bytes < 1 <<< (8 * bytes.length) := by
  rw [Nat.one_shiftLeft]
  induction bytes with
  | nil => simp [toNat]
  | cons byte rest ih =>
      have byteBound := byte.toNat_lt
      have split : 2 ^ (8 * (byte :: rest).length) = 256 * 2 ^ (8 * rest.length) := by
        rw [List.length_cons, Nat.mul_succ, Nat.pow_add, Nat.mul_comm]
      simp only [toNat]
      omega

theorem toNat_ofNat (width number : Nat) :
    toNat (ofNat width number) = number % 1 <<< (8 * width) := by
  rw [Nat.one_shiftLeft]
  induction width generalizing number with
  | zero => simp [ofNat, toNat, Nat.mod_one]
  | succ width ih =>
      have split : 2 ^ (8 * (width + 1)) = 256 * 2 ^ (8 * width) := by
        rw [Nat.mul_succ, Nat.pow_add, Nat.mul_comm]
      simp only [ofNat, toNat, ih, UInt8.toNat_ofNat']
      rw [split, Nat.mod_mul]

theorem ofNat_toNat (bytes : List UInt8) : ofNat bytes.length (toNat bytes) = bytes := by
  induction bytes with
  | nil => rfl
  | cons byte rest ih =>
      have byteBound := byte.toNat_lt
      have low : UInt8.ofNat (byte.toNat + 256 * toNat rest) = byte := by
        apply UInt8.toNat_inj.mp
        simp only [UInt8.toNat_ofNat']
        omega
      have high : (byte.toNat + 256 * toNat rest) / 256 = toNat rest := by omega
      simp only [List.length_cons, toNat, ofNat, low, high, ih]

end Bytes

namespace ByteOrder

/-- Bytes between this order and the one with the least significant byte first; the
same rearrangement goes both ways. -/
def arrange : ByteOrder → List UInt8 → List UInt8
  | .little, bytes | .native, bytes => bytes
  | .big, bytes => bytes.reverse

/-- The bytes of a pattern of `width` bytes. -/
def write (order : ByteOrder) {width : Nat} (pattern : BitVec (8 * width)) : List UInt8 :=
  order.arrange (Bytes.ofNat width pattern.toNat)

/-- The pattern of bytes; there are `width` of them. -/
def read (order : ByteOrder) (width : Nat) (bytes : List UInt8) : BitVec (8 * width) :=
  .ofNat _ (Bytes.toNat (order.arrange bytes))

@[simp] theorem length_arrange (order : ByteOrder) (bytes : List UInt8) :
    (order.arrange bytes).length = bytes.length := by
  cases order <;> simp [arrange]

@[simp] theorem arrange_arrange (order : ByteOrder) (bytes : List UInt8) :
    order.arrange (order.arrange bytes) = bytes := by
  cases order <;> simp [arrange]

@[simp] theorem length_write (order : ByteOrder) {width : Nat}
    (pattern : BitVec (8 * width)) : (order.write pattern).length = width := by
  simp [write]

theorem read_write (order : ByteOrder) {width : Nat} (pattern : BitVec (8 * width)) :
    order.read width (order.write pattern) = pattern := by
  simp [read, write, Bytes.toNat_ofNat, Nat.one_shiftLeft]

theorem write_read (order : ByteOrder) (bytes : List UInt8) :
    order.write (order.read bytes.length bytes) = bytes := by
  have bound := Bytes.toNat_lt (order.arrange bytes)
  have whole := Bytes.ofNat_toNat (order.arrange bytes)
  rw [length_arrange, Nat.one_shiftLeft] at bound
  rw [length_arrange] at whole
  rw [write, read, BitVec.toNat_ofNat, Nat.mod_eq_of_lt bound, whole, arrange_arrange]

end ByteOrder

end ObjectModel
