import ObjectModel.Bytes.Buffer
import ObjectModel.Ieee.Format

/-!
Contract: the types of elements that a buffer holds, and their values.

Integers are integers, the signed ones in two's complement. Floating-point values are
encodings: a half is read and written as the binary32 number that it stands for or is
rounded from.
-/

namespace ObjectModel

inductive Element where
  | int8
  | uint8
  | int16
  | uint16
  | int32
  | uint32
  | int64
  | float16
  | float32
  | float64
deriving DecidableEq, Repr

namespace Element

/-- Bytes of an element. -/
def width : Element → Nat
  | .int8 | .uint8 => 1
  | .int16 | .uint16 | .float16 => 2
  | .int32 | .uint32 | .float32 => 4
  | .int64 | .float64 => 8

/-- What programs see of an element. -/
abbrev Value : Element → Type
  | .int8 | .uint8 | .int16 | .uint16 | .int32 | .uint32 | .int64 => Int
  | .float16 | .float32 => BitVec 32
  | .float64 => BitVec 64

/-- The value of a stored pattern. -/
def ofPattern : (element : Element) → BitVec (8 * element.width) → element.Value
  | .int8, pattern | .int16, pattern | .int32, pattern | .int64, pattern => pattern.toInt
  | .uint8, pattern | .uint16, pattern | .uint32, pattern => (pattern.toNat : Int)
  | .float16, pattern => .ofNat 32 (Ieee.binary16.convert Ieee.binary32 pattern.toNat)
  | .float32, pattern => pattern
  | .float64, pattern => pattern

/-- The pattern that is stored for a value. -/
def toPattern : (element : Element) → element.Value → BitVec (8 * element.width)
  | .int8, value | .uint8, value | .int16, value | .uint16, value | .int32, value
  | .uint32, value | .int64, value => .ofInt _ value
  | .float16, value => .ofNat _ (Ieee.binary32.convert Ieee.binary16 value.toNat)
  | .float32, value => value
  | .float64, value => value

end Element

namespace Buffer

/-- The element at a place. -/
def get (buffer : Buffer) (order : ByteOrder) (element : Element) (place : Place) :
    Except OutOfBounds element.Value := do
  return element.ofPattern (← buffer.load order element.width place)

/-- The buffer after an element is put at a place. -/
def put (buffer : Buffer) (order : ByteOrder) (element : Element) (place : Place)
    (value : element.Value) : Except OutOfBounds Buffer :=
  buffer.store order place (element.toPattern value)

end Buffer

end ObjectModel
