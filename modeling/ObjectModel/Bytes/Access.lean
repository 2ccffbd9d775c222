import ObjectModel.Bytes.Element

/-!
Contract: sequences of accesses to one buffer.

A refused access leaves the buffer as it is, and the next one goes on with it.
-/

namespace ObjectModel

inductive ByteAccess where
  | order
  | get (element : Element) (place : Place)
  | put (element : Element) (place : Place) (value : element.Value)

/-- What an access answers. -/
inductive ByteAnswer where
  | order (order : ByteOrder)
  | value (element : Element) (value : element.Value)
  | buffer (bytes : List UInt8)

/-- An access in an order: its answer, and the buffer after it. -/
def ByteAccess.run (buffer : Buffer) (order : ByteOrder) :
    ByteAccess → Except OutOfBounds ByteAnswer × Buffer
  | .order => (.ok (.order order), buffer)
  | .get element place => ((buffer.get order element place).map (.value element), buffer)
  | .put element place value =>
      match buffer.put order element place value with
      | .ok changed => (.ok (.buffer changed.bytes), changed)
      | .error fault => (.error fault, buffer)

/-- The answers of accesses, each in its own order. -/
def Buffer.runAll (buffer : Buffer) :
    List (ByteOrder × ByteAccess) → List (Except OutOfBounds ByteAnswer)
  | [] => []
  | (order, access) :: rest =>
      let (answer, changed) := access.run buffer order
      answer :: changed.runAll rest

end ObjectModel
