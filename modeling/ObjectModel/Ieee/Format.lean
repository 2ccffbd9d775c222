/-!
Contract: binary interchange formats of floating-point numbers.

Owns: the fields of an encoding, the exact value of an encoding (`Format.decode`),
rounding an exact value to an encoding (`Format.encode`), to nearest with ties to
even, and going from one format to another (`Format.convert`). Encodings are natural
numbers, so every statement about them is integer arithmetic.

Does not own: the arithmetic of values (`Number`) and their decimal text
(`Decimal.Shortest`).
-/

namespace ObjectModel.Ieee

/-- Widths of the exponent and fraction fields. The sign is the bit above both. -/
structure Format where
  exponentBits : Nat
  fractionBits : Nat
deriving DecidableEq, Repr

def binary16 : Format := ⟨5, 10⟩
def binary32 : Format := ⟨8, 23⟩
def binary64 : Format := ⟨11, 52⟩

/-- What an encoding stands for. A finite datum is
`± significand * 2 ^ exponent`; its significand keeps the parity of the last
place, and a zero keeps its sign. -/
inductive Datum where
  | nan
  | infinity (negative : Bool)
  | finite (negative : Bool) (significand : Nat) (exponent : Int)
deriving DecidableEq, Repr

/-- `numerator / 2 ^ places` to the nearest integer, a tie to the even one. -/
def roundHalfEven (numerator places : Nat) : Nat :=
  let quotient := numerator >>> places
  let remainder := numerator % 1 <<< places
  if 2 * remainder < 1 <<< places then quotient
  else if 1 <<< places < 2 * remainder then quotient + 1
  else quotient + quotient % 2

namespace Format

def fieldLimit (format : Format) : Nat := 1 <<< format.exponentBits - 1

def bias (format : Format) : Nat := 1 <<< (format.exponentBits - 1) - 1

/-- Exponent of the last place of the subnormal numbers. -/
def leastExponent (format : Format) : Int :=
  1 - (format.bias : Int) - (format.fractionBits : Int)

def isNegative (format : Format) (bits : Nat) : Bool :=
  bits.testBit (format.exponentBits + format.fractionBits)

def field (format : Format) (bits : Nat) : Nat :=
  (bits >>> format.fractionBits) % 1 <<< format.exponentBits

def fraction (format : Format) (bits : Nat) : Nat :=
  bits % 1 <<< format.fractionBits

def signBit (format : Format) (negative : Bool) : Nat :=
  if negative then 1 <<< (format.exponentBits + format.fractionBits) else 0

/-- The datum of an encoding. -/
def decode (format : Format) (bits : Nat) : Datum :=
  let negative := format.isNegative bits
  let field := format.field bits
  let fraction := format.fraction bits
  if field = format.fieldLimit then
    if fraction = 0 then .infinity negative else .nan
  else if field = 0 then
    .finite negative fraction format.leastExponent
  else
    .finite negative (1 <<< format.fractionBits + fraction)
      (format.leastExponent + (field : Int) - 1)

/-- Encoding of `significand * 2 ^ exponent` without its sign. The significand is
rounded to the last place that the format has at this magnitude; a carry out of
the fraction field steps the exponent field, so the two fields are added. -/
def encodeMagnitude (format : Format) (significand : Nat) (exponent : Int) : Nat :=
  if significand = 0 then 0
  else
    let lastPlace := max
      ((significand.log2 : Int) + exponent - (format.fractionBits : Int))
      format.leastExponent
    let rounded :=
      if lastPlace ≤ exponent then significand <<< (exponent - lastPlace).toNat
      else roundHalfEven significand (lastPlace - exponent).toNat
    min
      ((lastPlace - format.leastExponent).toNat <<< format.fractionBits + rounded)
      (format.fieldLimit <<< format.fractionBits)

/-- The bit of the fraction that tells a quiet NaN. -/
def quietBit (format : Format) : Nat := 1 <<< (format.fractionBits - 1)

/-- Encoding nearest to a datum. Values beyond the largest finite one become an
infinity, and the only NaN written is the quiet one without payload. -/
def encode (format : Format) : Datum → Nat
  | .nan => format.fieldLimit <<< format.fractionBits + format.quietBit
  | .infinity negative =>
      format.signBit negative + format.fieldLimit <<< format.fractionBits
  | .finite negative significand exponent =>
      format.signBit negative + format.encodeMagnitude significand exponent

/-- The encoding of the same value in another format, or of the nearest one. A NaN
becomes quiet and keeps its sign, and of its payload the leading bits that there is
room for. -/
def convert (source target : Format) (bits : Nat) : Nat :=
  match source.decode bits with
  | .nan =>
      let payload := source.fraction bits
        <<< (target.fractionBits - source.fractionBits)
        >>> (source.fractionBits - target.fractionBits)
      target.signBit (source.isNegative bits) + target.fieldLimit <<< target.fractionBits
        + (target.quietBit ||| payload)
  | datum => target.encode datum

end Format

example : binary16.encode (binary64.decode 0x3FF8000000000000) = 0x3E00 := by decide
example : binary64.encode (.finite true 3 (-1)) = 0xBFF8000000000000 := by decide
example : binary16.encode (.finite false 65520 0) = 0x7C00 := by decide
example : binary16.convert binary32 0xFC01 = 0xFFC02000 := by decide
example : binary32.convert binary16 0xFFC02001 = 0xFE01 := by decide

end ObjectModel.Ieee
