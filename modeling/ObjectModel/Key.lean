import ObjectModel.Value
import ObjectModel.Decimal.Digits
import ObjectModel.Text.Quoted

/-!
Contract: property keys in canonical form.

A key is an array index, a string that is not the decimal text of an array index,
or a symbol. The constructors carry these conditions, so equal property names
have equal keys. `PropertyKey.ofString` and `PropertyKey.ofNat` build keys from
arbitrary text and numbers.

Owns: canonical form, conversion from and to values, and enumeration order.
-/

namespace ObjectModel

/-- Array indices are the numbers below this one. -/
def indexLimit : Nat := UInt32.size - 1

/-- The array index whose shortest decimal text this is: digits only, no leading
zero beside the zero itself, and below `indexLimit`. -/
def arrayIndex? (text : String) : Option Nat :=
  let digits := text.toList
  if digits.head? = some '0' && 1 < digits.length then none
  else Decimal.numeralBelow? indexLimit digits

theorem arrayIndex?_lt {text : String} {index : Nat}
    (isIndex : arrayIndex? text = some index) : index < indexLimit := by
  simp only [arrayIndex?] at isIndex
  split at isIndex
  · contradiction
  · exact Decimal.numeralBelow?_lt isIndex

/-- The digits of a number that is out of range are no array index. -/
theorem arrayIndex?_toString {number : Nat} (outOfRange : indexLimit ≤ number) :
    arrayIndex? (toString number) = none := by
  simp only [arrayIndex?]
  split
  · rfl
  · rw [Decimal.numeralBelow?_eq, Decimal.toList_toString, Decimal.numeral?_toDigits]
    simp [Option.filter, outOfRange]

inductive PropertyKey where
  | index (number : Nat) (inRange : number < indexLimit)
  | string (text : String) (notIndex : arrayIndex? text = none)
  | symbol (token : Symbol)
deriving DecidableEq

namespace PropertyKey

/-- The key with this text. -/
def ofString (text : String) : PropertyKey :=
  match isIndex : arrayIndex? text with
  | some number => .index number (arrayIndex?_lt isIndex)
  | none => .string text isIndex

/-- The key of a whole number: an array index, or the string of its digits. -/
def ofNat (number : Nat) : PropertyKey :=
  if inRange : number < indexLimit then .index number inRange
  else .string (toString number) (arrayIndex?_toString (Nat.le_of_not_lt inRange))

/-- The key that a value already is. Only strings and symbols are keys. -/
def ofValue? : Value → Option PropertyKey
  | .string name => some (ofString name)
  | .symbol token => some (.symbol token)
  | _ => none

/-- The key as a value; an array index becomes its digits. -/
def toValue : PropertyKey → Value
  | .index number _ => .string (toString number)
  | .string name _ => .string name
  | .symbol token => .symbol token

def isIndex : PropertyKey → Bool
  | .index _ _ => true
  | _ => false

def isSymbol : PropertyKey → Bool
  | .symbol _ => true
  | _ => false

/-- The bare text of a key, as messages name it. -/
def text : PropertyKey → String
  | .index number _ => toString number
  | .string name _ => name
  | .symbol token => token.text

/-- The text of a key with strings quoted. -/
def quotedText : PropertyKey → String
  | .string name _ => Text.quoted name
  | key => key.text

/-- Position of the kind of a key in enumeration order. -/
def orderClass : PropertyKey → Nat
  | .index _ _ => 0
  | .string _ _ => 1
  | .symbol _ => 2

/-- Enumeration order: array indices by number, then strings, then symbols.
Two strings, and two symbols, are not ordered by it. -/
def order : PropertyKey → PropertyKey → Ordering
  | .index left _, .index right _ => compare left right
  | left, right => compare left.orderClass right.orderClass

/-- Whether `left` may stand before `right` in an enumeration. -/
def mayPrecede (left right : PropertyKey) : Bool :=
  left.order right ≠ .gt

/-- Whether a key of this kind is wanted by a filter on strings and symbols; array
indices count as strings. -/
def isWanted (strings symbols : Bool) (key : PropertyKey) : Bool :=
  if key.isSymbol then symbols else strings

theorem isWanted_iff {strings symbols : Bool} {key : PropertyKey} :
    key.isWanted strings symbols = true ↔
      match key with
      | .index _ _ | .string _ _ => strings = true
      | .symbol _ => symbols = true := by
  cases key <;> exact Iff.rfl

theorem isWanted_all (key : PropertyKey) : key.isWanted true true = true := by
  cases key <;> rfl

theorem filter_isWanted_all (keys : List PropertyKey) :
    keys.filter (·.isWanted true true) = keys :=
  List.filter_eq_self.mpr fun key _ => key.isWanted_all

/-- Keys in enumeration order. The sort is stable, so strings and symbols keep
their order among themselves. -/
def sorted (keys : List PropertyKey) : List PropertyKey :=
  keys.mergeSort mayPrecede

end PropertyKey

end ObjectModel
