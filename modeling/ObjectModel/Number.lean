import ObjectModel.Decimal.Shortest

/-!
Contract: the numbers of the object model, binary64 encodings.

A number is its encoding, so equality of `Number` is equality of bits. The two
comparisons of the language are `ieeeEquals`, where NaN differs from itself and
the zeros agree, and `same`, where NaN equals itself and the zeros differ.

Owns: comparisons, conversion from and to whole numbers, the sum, and the text.
-/

namespace ObjectModel

/-- A floating-point number by its binary64 encoding. -/
structure Number where
  bits : UInt64
deriving DecidableEq, Inhabited

namespace Number

def datum (number : Number) : Ieee.Datum :=
  Ieee.binary64.decode number.bits.toNat

def ofDatum (datum : Ieee.Datum) : Number :=
  ⟨UInt64.ofNat (Ieee.binary64.encode datum)⟩

def nan : Number := ofDatum .nan

/-- A whole number; one that needs more than 53 bits is rounded. -/
def ofInt (whole : Int) : Number :=
  ofDatum (.finite (whole < 0) whole.natAbs 0)

def isNaN (number : Number) : Bool :=
  number.datum = .nan

def isNegative (number : Number) : Bool :=
  Ieee.binary64.isNegative number.bits.toNat

def isZero (number : Number) : Bool :=
  match number.datum with
  | .finite _ significand _ => significand = 0
  | _ => false

/-- Numeric equality: NaN differs from itself, and the zeros are equal. -/
def ieeeEquals (left right : Number) : Bool :=
  !left.isNaN && !right.isNaN &&
    (left = right || (left.isZero && right.isZero))

/-- SameValue of numbers: NaN equals itself, and the zeros differ. -/
def same (left right : Number) : Bool :=
  (left.isNaN && right.isNaN) ||
    (left.ieeeEquals right && left.isNegative = right.isNegative)

/-- Exact sum, rounded once. A sum of zero is negative only for two negative
zeros. -/
def add (left right : Number) : Number :=
  match left.datum, right.datum with
  | .nan, _ | _, .nan => nan
  | .infinity leftNegative, .infinity rightNegative =>
      if leftNegative = rightNegative then left else nan
  | .infinity _, _ => left
  | _, .infinity _ => right
  | .finite leftNegative leftSignificand leftExponent,
    .finite rightNegative rightSignificand rightExponent =>
      let exponent := min leftExponent rightExponent
      let signed (negative : Bool) (significand : Nat) (own : Int) : Int :=
        let magnitude : Nat := significand <<< (own - exponent).toNat
        if negative then -(magnitude : Int) else magnitude
      let sum := signed leftNegative leftSignificand leftExponent +
        signed rightNegative rightSignificand rightExponent
      if sum = 0 then ofDatum (.finite (leftNegative && rightNegative) 0 exponent)
      else ofDatum (.finite (sum < 0) sum.natAbs exponent)

/-- The whole part of `significand * 2 ^ exponent`. -/
def wholePart (significand : Nat) (exponent : Int) : Nat :=
  (significand <<< exponent.toNat) >>> (-exponent).toNat

/-- The 64-bit signed integers are those from minus this number on and below it. -/
def int64Limit : Int := 1 <<< 63

/-- The integer part, clamped to the 64-bit signed integers; zero for NaN. -/
def toInt64 (number : Number) : Int :=
  match number.datum with
  | .nan => 0
  | .infinity negative => if negative then -int64Limit else int64Limit - 1
  | .finite negative significand exponent =>
      let whole : Int := wholePart significand exponent
      max (-int64Limit) (min (int64Limit - 1) (if negative then -whole else whole))

/-- How many list elements a length asks for: the whole part, none for NaN and
negative numbers, and at most `2 ^ 32 - 1`. -/
def toLength (number : Number) : Nat :=
  match number.datum with
  | .nan => 0
  | .infinity negative => if negative then 0 else UInt32.size - 1
  | .finite negative significand exponent =>
      if negative then 0 else min (wholePart significand exponent) (UInt32.size - 1)

/-- The number as an integer, if it is whole, no larger than `2 ^ 53` in magnitude
and not the negative zero. Such a number is written without its encoding. -/
def whole? (number : Number) : Option Int :=
  match number.datum with
  | .finite negative significand exponent =>
      let whole := wholePart significand exponent
      if whole <<< (-exponent).toNat = significand <<< exponent.toNat
          && whole ≤ 1 <<< 53 && !(negative && significand = 0) then
        some (if negative then -(whole : Int) else whole)
      else none
  | _ => none

/-- The shortest digits that read back, never with an exponent. -/
def text (number : Number) : String :=
  let signed (negative : Bool) (magnitude : String) : String :=
    if negative then "-" ++ magnitude else magnitude
  match number.datum with
  | .nan => "NaN"
  | .infinity negative => signed negative "inf"
  | .finite negative significand exponent =>
      signed negative <|
        if significand = 0 then "0"
        else (Decimal.shortest Ieee.binary64 significand exponent).positional

end Number

end ObjectModel
