import ObjectModel.Number

/-!
Contract: the values that properties hold and calls pass.

Objects are named by their position in the heap, so a value is plain data and two
object values are equal exactly when they are the same object. Symbols are named
by the order of their creation; a description does not identify a symbol.

Owns: the two equalities of values and their truth value. Does not own: anything
that needs the heap, such as callability or the name of an object's kind.
-/

namespace ObjectModel

/-- Position of an object in the heap. -/
abbrev ObjectId := Nat

/-- A property key token that equals only itself. -/
structure Symbol where
  id : Nat
  description : Option String
deriving DecidableEq

def Symbol.text (symbol : Symbol) : String :=
  "Symbol(" ++ symbol.description.getD "" ++ ")"

inductive Value where
  | undefined
  | null
  | boolean (value : Bool)
  | number (value : Number)
  | string (value : String)
  | symbol (value : Symbol)
  | object (id : ObjectId)
deriving DecidableEq, Inhabited

namespace Value

def isUndefined : Value → Bool
  | .undefined => true
  | _ => false

def isObject : Value → Bool
  | .object _ => true
  | _ => false

def object? : Value → Option ObjectId
  | .object id => some id
  | _ => none

def number? : Value → Option Number
  | .number value => some value
  | _ => none

/-- An object, or `null` for none. -/
def ofObjectOrNull : Option ObjectId → Value
  | some id => .object id
  | none => .null

/-- An object, or `undefined` for none. -/
def ofObjectOrUndefined : Option ObjectId → Value
  | some id => .object id
  | none => .undefined

/-- ToBoolean: undefined, null, false, the zeros, NaN and the empty string are
false. -/
def toBoolean : Value → Bool
  | .undefined | .null => false
  | .boolean value => value
  | .number value => !(value.isZero || value.isNaN)
  | .string value => value ≠ ""
  | .symbol _ | .object _ => true

/-- SameValue, the equality that property invariants are about. -/
def same : Value → Value → Bool
  | .number left, .number right => left.same right
  | left, right => left = right

/-- Equality with numeric comparison of numbers: NaN differs from itself, and the
zeros are equal. -/
def looselySame : Value → Value → Bool
  | .number left, .number right => left.ieeeEquals right
  | left, right => left = right

end Value

end ObjectModel
