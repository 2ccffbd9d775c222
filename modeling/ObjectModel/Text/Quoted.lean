import ObjectModel.Text.Unprintable
import ObjectModel.Text.Extending

/-!
Contract: text between double quotes, on one line and in printed characters.

A quote and a backslash take a backslash; tab, line feed, carriage return and
NUL have their letters; every other character without a printed form of its own,
and every character that would join the one before it, is written by number.
-/

namespace ObjectModel.Text

/-- How one character stands inside quotes. -/
def quotedChar (character : Char) : List Char :=
  if character = '"' then ['\\', '"']
  else if character = '\\' then ['\\', '\\']
  else if character = '\t' then ['\\', 't']
  else if character = '\n' then ['\\', 'n']
  else if character = '\r' then ['\\', 'r']
  else if character = '\x00' then ['\\', '0']
  else if isUnprintable character || extendsGrapheme character then
    ['\\', 'u', '\x7b'] ++ Nat.toDigits 16 character.toNat ++ ['\x7d']
  else [character]

/-- The text between double quotes. -/
def quoted (text : String) : String :=
  String.ofList ('"' :: text.toList.flatMap quotedChar ++ ['"'])

end ObjectModel.Text
