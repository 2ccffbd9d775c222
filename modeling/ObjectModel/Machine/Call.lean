import ObjectModel.Machine.Exec

/-!
Contract: the internal methods of objects, as requests with typed answers.

A `Call` names one internal method of one object with its arguments, and
`Call.Answer` is the type of its result. Internal methods call each other through a
`Dispatch`, so each can be stated, run and reasoned about on its own.
-/

namespace ObjectModel

inductive Call where
  | getPrototypeOf (id : ObjectId)
  | setPrototypeOf (id : ObjectId) (prototype : Option ObjectId)
  | isExtensible (id : ObjectId)
  | preventExtensions (id : ObjectId)
  | getOwnProperty (id : ObjectId) (key : PropertyKey)
  | defineOwnProperty (id : ObjectId) (key : PropertyKey) (change : Descriptor)
  | has (id : ObjectId) (key : PropertyKey)
  | get (id : ObjectId) (key : PropertyKey) (receiver : Value)
  | set (id : ObjectId) (key : PropertyKey) (value receiver : Value)
  | delete (id : ObjectId) (key : PropertyKey)
  | ownKeys (id : ObjectId) (strings symbols : Bool)
  | call (id : ObjectId) (this : Value) (arguments : List Value)
deriving DecidableEq

/-- The type of the result of an internal method. `get` keeps a missing property
apart from one that is `undefined`, and `ownKeys` lists strings, symbols or both. -/
abbrev Call.Answer : Call → Type
  | .getPrototypeOf _ => Option ObjectId
  | .setPrototypeOf _ _ => Bool
  | .isExtensible _ => Bool
  | .preventExtensions _ => Verdict
  | .getOwnProperty _ _ => Option Descriptor
  | .defineOwnProperty _ _ _ => Verdict
  | .has _ _ => Bool
  | .get _ _ _ => Option Value
  | .set _ _ _ _ => Verdict
  | .delete _ _ => Verdict
  | .ownKeys _ _ _ => List PropertyKey
  | .call _ _ _ => Value

/-- A way to run internal methods. -/
abbrev Dispatch (σ : Type) := (call : Call) → Exec σ call.Answer

namespace Call

/-- Defines a writable, enumerable and configurable data property. -/
abbrev createData (id : ObjectId) (key : PropertyKey) (value : Value) : Call :=
  .defineOwnProperty id key (.data value .assigned)

/-- Lists every own key. -/
abbrev allKeys (id : ObjectId) : Call :=
  .ownKeys id true true

/-- Reads a property with the object itself as receiver. -/
abbrev getValue (id : ObjectId) (key : PropertyKey) : Call :=
  .get id key (.object id)

/-- Writes a property with the object itself as receiver. -/
abbrev put (id : ObjectId) (key : PropertyKey) (value : Value) : Call :=
  .set id key value (.object id)

end Call

end ObjectModel
