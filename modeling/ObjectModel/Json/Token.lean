import ObjectModel.Decimal.Digits

/-!
Contract: the tokens of JSON texts.

A string token keeps its escapes by number as UTF-16 units, because a text may hold
half of a surrogate pair. `text?` is the text of a string, if its units are whole
pairs.
-/

namespace ObjectModel.Json

inductive Container where
  | array
  | object
deriving DecidableEq, Repr

/-- One piece of a string: a character, or a UTF-16 unit that is given by number. -/
inductive StringItem where
  | character (value : Char)
  | unit (code : Nat)
deriving DecidableEq, Repr

inductive Token where
  | opening (container : Container)
  | closing (container : Container)
  | comma
  | colon
  | null
  | boolean (value : Bool)
  | number (lexeme : List Char)
  | string (items : List StringItem)
deriving DecidableEq, Repr

/-- The text of string items. A leading surrogate needs a trailing one right after
it, and a trailing surrogate needs a leading one before it. -/
def text? : List StringItem → Option (List Char)
  | [] => some []
  | .character value :: rest => (text? rest).map (value :: ·)
  | .unit leading :: .unit trailing :: rest =>
      if 0xD800 ≤ leading && leading < 0xDC00 then
        if 0xDC00 ≤ trailing && trailing < 0xE000 then
          let code := 0x10000 + (leading - 0xD800) * 0x400 + (trailing - 0xDC00)
          (text? rest).map (Char.ofNat code :: ·)
        else none
      else if 0xDC00 ≤ leading && leading < 0xE000 then none
      else (text? (.unit trailing :: rest)).map (Char.ofNat leading :: ·)
  | .unit code :: rest =>
      if 0xD800 ≤ code && code < 0xE000 then none
      else (text? rest).map (Char.ofNat code :: ·)

/-- The digits after a sign, if there is one. -/
def unsigned (characters : List Char) (signs : List Char) : List Char :=
  match characters with
  | [] => []
  | first :: rest => if first ∈ signs then rest else characters

/-- A number: a whole part without leading zeros, then a fraction and an exponent,
each of which may be missing. -/
def isNumber (lexeme : List Char) : Bool :=
  let (whole, rest) := (unsigned lexeme ['-']).span Char.isDigit
  let isWhole := !whole.isEmpty && (whole.head? ≠ some '0' || whole.length = 1)
  let (isFraction, rest) : Bool × List Char :=
    match rest with
    | '.' :: rest =>
        let (digits, rest) := rest.span Char.isDigit
        (!digits.isEmpty, rest)
    | rest => (true, rest)
  let isExponent :=
    match rest with
    | [] => true
    | mark :: rest =>
        (mark = 'e' || mark = 'E') && Decimal.isNumeral (unsigned rest ['+', '-'])
  isWhole && isFraction && isExponent

/-- The number of a hexadecimal digit. -/
def hexDigit? (digit : Char) : Option Nat :=
  if digit.isDigit then some (digit.toNat - '0'.toNat)
  else if 'a' ≤ digit && digit ≤ 'f' then some (digit.toNat - 'a'.toNat + 10)
  else if 'A' ≤ digit && digit ≤ 'F' then some (digit.toNat - 'A'.toNat + 10)
  else none

/-- The character that a letter stands for after a backslash. -/
def escaped? : Char → Option Char
  | '"' => some '"'
  | '\\' => some '\\'
  | '/' => some '/'
  | 'b' => some '\x08'
  | 'f' => some '\x0c'
  | 'n' => some '\n'
  | 'r' => some '\r'
  | 't' => some '\t'
  | _ => none

/-- The items of a string up to its closing quote, in reverse before `seen`, and what
follows the quote. -/
def string? (seen : List StringItem) : List Char → Option (List StringItem × List Char)
  | [] => none
  | '"' :: rest => some (seen.reverse, rest)
  | '\\' :: 'u' :: first :: second :: third :: fourth :: rest =>
      match hexDigit? first, hexDigit? second, hexDigit? third, hexDigit? fourth with
      | some first, some second, some third, some fourth =>
          let code := ((first * 16 + second) * 16 + third) * 16 + fourth
          string? (.unit code :: seen) rest
      | _, _, _, _ => none
  | '\\' :: letter :: rest =>
      match escaped? letter with
      | some value => string? (.character value :: seen) rest
      | none => none
  | value :: rest =>
      if value = '\\' || value.toNat < 0x20 then none
      else string? (.character value :: seen) rest

theorem length_of_string? {seen items : List StringItem} {characters rest : List Char}
    (isRead : string? seen characters = some (items, rest)) :
    rest.length < characters.length := by
  fun_induction string? seen characters <;> grind

def isNumberChar (character : Char) : Bool :=
  character.isDigit || character ∈ ['+', '-', '.', 'e', 'E']

/-- The token of a character that is one by itself. -/
def punctuation? : Char → Option Token
  | '[' => some (.opening .array)
  | ']' => some (.closing .array)
  | '\x7b' => some (.opening .object)
  | '\x7d' => some (.closing .object)
  | ',' => some .comma
  | ':' => some .colon
  | _ => none

def word? (word : List Char) : Option Token :=
  if word = ['n', 'u', 'l', 'l'] then some .null
  else if word = ['t', 'r', 'u', 'e'] then some (.boolean true)
  else if word = ['f', 'a', 'l', 's', 'e'] then some (.boolean false)
  else none

/-- The tokens of a text, after those in `seen`, which are in reverse. -/
def tokensFrom? (seen : List Token) (characters : List Char) : Option (List Token) :=
  match characters with
  | [] => some seen.reverse
  | first :: rest =>
      if first ∈ [' ', '\t', '\n', '\r'] then tokensFrom? seen rest
      else
        match punctuation? first with
        | some token => tokensFrom? (token :: seen) rest
        | none =>
            if first = '"' then
              match _isRead : string? [] rest with
              | some (items, rest) => tokensFrom? (.string items :: seen) rest
              | none => none
            else if first.isAlpha then
              match word? (first :: rest.takeWhile Char.isAlpha) with
              | some token => tokensFrom? (token :: seen) (rest.dropWhile Char.isAlpha)
              | none => none
            else
              let lexeme := first :: rest.takeWhile isNumberChar
              if isNumber lexeme then
                tokensFrom? (.number lexeme :: seen) (rest.dropWhile isNumberChar)
              else none
termination_by characters.length
decreasing_by
  · simp
  · simp
  · have := length_of_string? _isRead
    simp only [List.length_cons]
    omega
  · have := (List.dropWhile_suffix (l := rest) Char.isAlpha).length_le
    simp only [List.length_cons]
    omega
  · have := (List.dropWhile_suffix (l := rest) isNumberChar).length_le
    simp only [List.length_cons]
    omega

/-- The tokens of a text. -/
def tokens? (text : String) : Option (List Token) :=
  tokensFrom? [] text.toList

end ObjectModel.Json
