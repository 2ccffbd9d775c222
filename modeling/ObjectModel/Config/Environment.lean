import ObjectModel.Config
import ObjectModel.Decimal.Digits
import ObjectModel.Text.Blank

/-!
Contract: settings in environment variables.

Blanks around a text do not count. A variable whose text cannot be read chooses
nothing.
-/

namespace ObjectModel

/-- A flag in words, in any case of the ASCII letters. -/
def flag? (text : String) : Option Bool :=
  let word := String.ofList ((Text.trimmed text.toList).map Char.toLower)
  if word ∈ ["1", "true", "yes", "on"] then some true
  else if word ∈ ["0", "false", "no", "off"] then some false
  else none

/-- A size in decimal digits, after at most one plus sign. -/
def size? (text : String) : Option Nat :=
  let trimmed := Text.trimmed text.toList
  let digits := if trimmed.head? = some '+' then trimmed.tail else trimmed
  Decimal.numeralBelow? sizeLimit digits

/-- The settings of an environment. -/
def Settings.ofEnvironment (lookup : String → Option String) : Settings :=
  { dictionaryObjects := (lookup "OTTER_DICTIONARY_OBJECTS").bind flag?
    dictionaryThreshold := (lookup "OTTER_DICTIONARY_THRESHOLD").bind size?
    fastOwnKeys := (lookup "OTTER_FAST_OWN_KEYS").bind flag?
    maxProxyDepth := (lookup "OTTER_MAX_PROXY_DEPTH").bind size? }

end ObjectModel
