import ObjectModel.Bytes.Order

/-!
Contract: loads and stores of patterns in a byte buffer.

An access names its place by an offset, an index and the stride between elements, all
words of 64 bits. It is checked in words, without wrapping, before it touches the
buffer; `Buffer.span?` says which bytes it is about.
-/

namespace ObjectModel

/-- Bytes whose number is a word. -/
structure Buffer where
  bytes : List UInt8
  isAddressable : bytes.length < UInt64.size

/-- Where an element lies: `offset + index * stride`. -/
structure Place where
  offset : UInt64
  index : UInt64
  stride : UInt64
deriving DecidableEq, Repr

/-- An access that does not lie in the buffer. The offset is where it would start, or
the last word if no word says so. -/
structure OutOfBounds where
  offset : UInt64
  width : Nat
  length : Nat
deriving DecidableEq, Repr

def OutOfBounds.message (fault : OutOfBounds) : String :=
  "RangeError: offset " ++ toString fault.offset.toNat ++ " with width "
    ++ toString fault.width ++ " is out of bounds for length " ++ toString fault.length

namespace Word

/-- The sum, unless it needs more than 64 bits. -/
def add? (left right : UInt64) : Option UInt64 :=
  if left.toNat + right.toNat < UInt64.size then some (left + right) else none

/-- The product, unless it needs more than 64 bits. -/
def mul? (left right : UInt64) : Option UInt64 :=
  if left.toNat * right.toNat < UInt64.size then some (left * right) else none

end Word

/-- The start of an element, if it is a word. -/
def Place.start? (place : Place) : Option UInt64 := do
  let distance ← Word.mul? place.index place.stride
  Word.add? distance place.offset

namespace Buffer

def empty : Buffer := ⟨[], by decide⟩

/-- A buffer with these bytes, unless there are too many. -/
def ofList? (bytes : List UInt8) : Option Buffer :=
  if isAddressable : bytes.length < UInt64.size then some ⟨bytes, isAddressable⟩ else none

def length (buffer : Buffer) : Nat := buffer.bytes.length

/-- Where an access of `width` bytes starts, if it lies in the buffer. -/
def start? (buffer : Buffer) (place : Place) (width : Nat) : Except OutOfBounds Nat :=
  match place.start? with
  | none => .error ⟨UInt64.ofNat (UInt64.size - 1), width, buffer.length⟩
  | some start =>
      match Word.add? start (UInt64.ofNat width) with
      | some stop =>
          if stop.toNat ≤ buffer.length then .ok start.toNat
          else .error ⟨start, width, buffer.length⟩
      | none => .error ⟨start, width, buffer.length⟩

/-- The pattern of `width` bytes at a place. -/
def load (buffer : Buffer) (order : ByteOrder) (width : Nat) (place : Place) :
    Except OutOfBounds (BitVec (8 * width)) := do
  let start ← buffer.start? place width
  return order.read width ((buffer.bytes.drop start).take width)

/-- The bytes with some of them replaced from `start` on, as far as the bytes go. -/
def overwrite (bytes : List UInt8) (start : Nat) (replacement : List UInt8) : List UInt8 :=
  bytes.take start
    ++ replacement.take (bytes.length - start)
    ++ bytes.drop (start + replacement.length)

@[simp] theorem length_overwrite (bytes : List UInt8) (start : Nat)
    (replacement : List UInt8) :
    (overwrite bytes start replacement).length = bytes.length := by
  simp only [overwrite, List.length_append, List.length_take, List.length_drop]
  omega

/-- The buffer with a pattern stored at a place. -/
def store (buffer : Buffer) (order : ByteOrder) {width : Nat} (place : Place)
    (pattern : BitVec (8 * width)) : Except OutOfBounds Buffer := do
  let start ← buffer.start? place width
  return ⟨overwrite buffer.bytes start (order.write pattern), by
    simpa using buffer.isAddressable⟩

end Buffer

end ObjectModel
