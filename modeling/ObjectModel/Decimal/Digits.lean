/-!
Contract: decimal digits as numbers.

`numeral?` reads a numeral of any length. `numeralBelow?` answers only numbers below
a limit and never builds a larger one, however long the numeral is.
-/

namespace ObjectModel.Decimal

/-- The number whose digits are those of `value` and one more. -/
def appendDigit (value : Nat) (digit : Char) : Nat :=
  10 * value + (digit.toNat - '0'.toNat)

/-- The number that decimal digits stand for. -/
def digitsValue (digits : List Char) : Nat :=
  digits.foldl appendDigit 0

/-- Digits, at least one. -/
def isNumeral (characters : List Char) : Bool :=
  !characters.isEmpty && characters.all Char.isDigit

/-- The number that a text of digits alone stands for. -/
def numeral? (characters : List Char) : Option Nat :=
  if isNumeral characters then some (digitsValue characters) else none

/-- The number whose digits are those of `value` and then these characters, if all of
them are digits and it is below the limit. -/
def extendBelow? (limit value : Nat) : List Char → Option Nat
  | [] => if value < limit then some value else none
  | character :: rest =>
      if character.isDigit && value < limit then
        extendBelow? limit (appendDigit value character) rest
      else none

/-- The number that a text of digits alone stands for, if it is below the limit. -/
def numeralBelow? (limit : Nat) (characters : List Char) : Option Nat :=
  if characters.isEmpty then none else extendBelow? limit 0 characters

theorem numeral?_eq_some_iff {digits : List Char} {number : Nat} :
    numeral? digits = some number ↔
      digits ≠ [] ∧ (∀ digit ∈ digits, digit.isDigit = true) ∧ digitsValue digits = number := by
  simp [numeral?, isNumeral, and_assoc]

/-- The digits of a number stand for it. -/
theorem numeral?_toDigits (number : Nat) : numeral? (Nat.toDigits 10 number) = some number := by
  refine numeral?_eq_some_iff.mpr ⟨Nat.toDigits_ne_nil, fun digit member => ?_, ?_⟩
  · exact Nat.isDigit_of_mem_toDigits (by decide) (by decide) member
  · exact Nat.ofDigitChars_toDigits (by decide) (by decide)

theorem toList_toString (number : Nat) :
    (toString number).toList = Nat.toDigits 10 number := by
  rw [Nat.toString_eq_ofList_toDigits, String.toList_ofList]

theorem le_foldl_appendDigit (value : Nat) (digits : List Char) :
    value ≤ digits.foldl appendDigit value := by
  induction digits generalizing value with
  | nil => exact Nat.le_refl value
  | cons digit rest inductionHypothesis =>
      have grown : value ≤ appendDigit value digit := by
        unfold appendDigit
        omega
      exact Nat.le_trans grown (inductionHypothesis _)

theorem extendBelow?_eq (limit value : Nat) (characters : List Char) :
    extendBelow? limit value characters =
      if characters.all Char.isDigit ∧ characters.foldl appendDigit value < limit then
        some (characters.foldl appendDigit value)
      else none := by
  induction characters generalizing value with
  | nil => simp [extendBelow?]
  | cons character rest inductionHypothesis =>
      by_cases below : value < limit
      · by_cases digit : character.isDigit <;>
          simp [extendBelow?, below, digit, inductionHypothesis]
      · have reached : ¬ rest.foldl appendDigit (appendDigit value character) < limit := by
          have grown := le_foldl_appendDigit value (character :: rest)
          simp only [List.foldl_cons] at grown
          omega
        simp [extendBelow?, below, reached]

/-- Stopping at the limit loses no number below it. -/
theorem numeralBelow?_eq (limit : Nat) (characters : List Char) :
    numeralBelow? limit characters = (numeral? characters).filter (· < limit) := by
  cases characters with
  | nil => rfl
  | cons character rest =>
      by_cases digits : (character :: rest).all Char.isDigit <;>
        simp [numeralBelow?, numeral?, isNumeral, digitsValue, extendBelow?_eq, digits,
          Option.filter]

theorem numeralBelow?_lt {limit number : Nat} {characters : List Char}
    (isBelow : numeralBelow? limit characters = some number) : number < limit := by
  rw [numeralBelow?_eq] at isBelow
  grind [Option.filter_eq_some_iff]

end ObjectModel.Decimal
