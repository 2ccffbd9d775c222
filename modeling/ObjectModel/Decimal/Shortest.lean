import ObjectModel.Ieee.Format

/-!
Contract: the shortest decimal that reads back as a given floating-point number,
and its positional text.

`shortest` walks decimal grids from coarse to fine. On each grid only the two
neighbours of the value can lie in the interval of reals that round to it, so
the first grid with a hit has the fewest digits. Of two hits the nearer one is
taken, and an exact tie goes up.

Does not own: signs, zeros, infinities and NaN, which `Number.text` spells.
-/

namespace ObjectModel

/-- The number `digits * 10 ^ scale`. -/
structure Decimal where
  digits : Nat
  scale : Int
deriving DecidableEq, Repr

namespace Decimal

/-- A positive value with the ends of the interval of reals that round to it,
over one denominator. The ends belong to the interval if `closed`. -/
structure Interval where
  low : Nat
  value : Nat
  high : Nat
  denominator : Nat
  closed : Bool
deriving DecidableEq, Repr

/-- The rounding interval of `significand * 2 ^ exponent`. The gap below a power of
two is half the gap above it, except at the bottom of the exponent range. -/
def Interval.around (format : Ieee.Format) (significand : Nat) (exponent : Int) :
    Interval :=
  let atPowerOfTwo :=
    significand = 1 <<< format.fractionBits && format.leastExponent < exponent
  let up := 1 <<< (exponent - 2).toNat
  { low := (4 * significand - if atPowerOfTwo then 1 else 2) * up
    value := 4 * significand * up
    high := (4 * significand + 2) * up
    denominator := 1 <<< (2 - exponent).toNat
    closed := significand % 2 = 0 }

/-- The same interval in units of `10 ^ scale`. -/
def Interval.onGrid (interval : Interval) (scale : Int) : Interval :=
  { low := interval.low * Nat.pow 10 (-scale).toNat
    value := interval.value * Nat.pow 10 (-scale).toNat
    high := interval.high * Nat.pow 10 (-scale).toNat
    denominator := interval.denominator * Nat.pow 10 scale.toNat
    closed := interval.closed }

def Interval.contains (interval : Interval) (point : Nat) : Bool :=
  let scaled := point * interval.denominator
  if interval.closed then interval.low ≤ scaled && scaled ≤ interval.high
  else interval.low < scaled && scaled < interval.high

/-- The whole number of the interval nearest to its value, if it contains one. -/
def Interval.nearestWhole? (interval : Interval) : Option Nat :=
  let below := interval.value / interval.denominator
  let above := below + 1
  match 0 < below && interval.contains below, interval.contains above with
  | false, false => none
  | true, false => some below
  | false, true => some above
  | true, true =>
      if 2 * (interval.value % interval.denominator) < interval.denominator then
        some below
      else some above

/-- First hit on the grids `10 ^ scale`, `10 ^ (scale - 1)`, ... -/
def firstHit (interval : Interval) : Nat → Int → Decimal
  | 0, scale =>
      let onGrid := interval.onGrid scale
      ⟨onGrid.value / onGrid.denominator, scale⟩
  | steps + 1, scale =>
      match (interval.onGrid scale).nearestWhole? with
      | some digits => ⟨digits, scale⟩
      | none => firstHit interval steps (scale - 1)

/-- A scale whose unit is no smaller than `significand * 2 ^ exponent`, from an
upper bound of the binary logarithm and `log10 2 < 0.30103`. -/
def coarseScale (significand : Nat) (exponent : Int) : Int :=
  Int.fdiv (((significand.log2 : Int) + 1 + exponent) * 30103) 100000 + 1

/-- The fewest digits that read back as `significand * 2 ^ exponent`, where
`0 < significand`. Seventeen digits and two coarser grids are always enough for
the widest format. -/
def shortest (format : Ieee.Format) (significand : Nat) (exponent : Int) : Decimal :=
  firstHit (.around format significand exponent) 24 (coarseScale significand exponent)

/-- All digits without an exponent: trailing zeros for a positive scale, a point
and leading zeros for a negative one. -/
def positional (decimal : Decimal) : String :=
  let digits := (toString decimal.digits).toList
  let zeros (count : Nat) : List Char := List.replicate count '0'
  if 0 ≤ decimal.scale then
    String.ofList (digits ++ zeros decimal.scale.toNat)
  else
    let places := (-decimal.scale).toNat
    let padded := zeros (places + 1 - digits.length) ++ digits
    String.ofList (padded.take (padded.length - places) ++ '.' ::
      padded.drop (padded.length - places))

example : shortest Ieee.binary64 1 (-1074) = ⟨5, -324⟩ := by decide +kernel
example : shortest Ieee.binary64 0x1999999999999A (-56) = ⟨1, -1⟩ := by decide +kernel
example : shortest Ieee.binary64 4503599627370496 (-1074) = ⟨22250738585072014, -324⟩ := by
  decide +kernel

end Decimal

end ObjectModel
