/-!
Contract: blank characters and the text between them.

A character is blank if it has the Unicode property `White_Space`. `trimmed`
removes the blanks at both ends.
-/

namespace ObjectModel.Text

def isBlank (character : Char) : Bool :=
  let code := character.toNat
  (9 ≤ code && code ≤ 13) || code = 0x20 || code = 0x85 || code = 0xA0 || code = 0x1680
    || (0x2000 ≤ code && code ≤ 0x200A) || code = 0x2028 || code = 0x2029 || code = 0x202F
    || code = 0x205F || code = 0x3000

/-- The characters from the first to the last that is not blank. -/
def trimmed (characters : List Char) : List Char :=
  ((characters.dropWhile isBlank).reverse.dropWhile isBlank).reverse

end ObjectModel.Text
