import ObjectModel.Config
import ObjectModel.Json.Skip

/-!
Contract: settings in a JSON text.

The text is an object, or an array with the settings in order. A setting may be
missing, and members of an object with other names are passed over. A setting that
comes twice, or has a value that it cannot have, makes the whole text unreadable.
-/

namespace ObjectModel

open Json

inductive Setting where
  | dictionaryObjects
  | dictionaryThreshold
  | fastOwnKeys
  | maxProxyDepth
deriving DecidableEq, Repr

namespace Setting

/-- All settings in the order of an array. -/
def all : List Setting :=
  [.dictionaryObjects, .dictionaryThreshold, .fastOwnKeys, .maxProxyDepth]

def name : Setting → String
  | .dictionaryObjects => "dictionary-objects"
  | .dictionaryThreshold => "dictionary-transition-threshold"
  | .fastOwnKeys => "fast-own-keys"
  | .maxProxyDepth => "max-proxy-depth"

def ofName? (name : String) : Option Setting :=
  all.find? fun setting => setting.name = name

end Setting

namespace Json.Token

def flag? : Token → Option Bool
  | .boolean value => some value
  | _ => none

/-- A size, written as a whole number. -/
def size? : Token → Option Nat
  | .number lexeme => Decimal.numeralBelow? sizeLimit lexeme
  | _ => none

end Json.Token

namespace Settings

/-- These settings with one more, which must not be chosen yet. -/
def choose? (settings : Settings) (setting : Setting) (token : Token) : Option Settings :=
  match setting with
  | .dictionaryObjects => do
      guard settings.dictionaryObjects.isNone
      return { settings with dictionaryObjects := some (← token.flag?) }
  | .dictionaryThreshold => do
      guard settings.dictionaryThreshold.isNone
      return { settings with dictionaryThreshold := some (← token.size?) }
  | .fastOwnKeys => do
      guard settings.fastOwnKeys.isNone
      return { settings with fastOwnKeys := some (← token.flag?) }
  | .maxProxyDepth => do
      guard settings.maxProxyDepth.isNone
      return { settings with maxProxyDepth := some (← token.size?) }

/-- The settings of an array whose elements are for `expected`; `[]` is what is left
after its opening. -/
def ofElements? (settings : Settings) : List Setting → List Token → Option Settings
  | setting :: expected, token :: .comma :: rest => do
      guard (!expected.isEmpty && rest ≠ [.closing .array])
      ofElements? (← settings.choose? setting token) expected rest
  | setting :: _, [token, .closing .array] => settings.choose? setting token
  | _, [.closing .array] => some settings
  | _, _ => none

/-- The settings of the members from here to the end of the object, after at most
`fuel` members. -/
def ofMembers? (settings : Settings) : (fuel : Nat) → List Token → Option Settings
  | fuel + 1, .string items :: .colon :: rest => do
      let name ← text? items
      let (settings, rest) ←
        match Setting.ofName? (String.ofList name), rest with
        | some setting, token :: rest => do
            pure (← settings.choose? setting token, rest)
        | _, rest => do pure (settings, ← skip? rest)
      match rest with
      | .comma :: rest => ofMembers? settings fuel rest
      | [.closing .object] => some settings
      | _ => none
  | _, _ => none

/-- The settings of a JSON text, if it can be read. -/
def ofJson? (text : String) : Option Settings := do
  match ← tokens? text with
  | .opening .array :: rest => ofElements? {} Setting.all rest
  | [.opening .object, .closing .object] => some {}
  | .opening .object :: rest => ofMembers? {} rest.length rest
  | _ => none

end Settings

end ObjectModel
