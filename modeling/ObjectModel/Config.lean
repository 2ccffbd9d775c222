/-!
Contract: the tunable limits of an object model.

None of the first three fields is visible to programs; the last one bounds how
deep proxies may dispatch into each other.

Owns: the limits, their defaults, and settings, which are the limits that somebody
chose. Does not own: the places where settings are read from.
-/

namespace ObjectModel

structure Config where
  /-- Literal objects may switch to dictionary storage. -/
  dictionaryObjects : Bool := true
  /-- Property count from which a literal object's next new property makes it a
  dictionary. -/
  dictionaryThreshold : Nat := 32
  /-- Own keys that are stored in enumeration order are not sorted again. -/
  fastOwnKeys : Bool := true
  /-- Limit of nested proxy dispatch. -/
  maxProxyDepth : Nat := 256
deriving DecidableEq, Repr, Inhabited

/-- Sizes are the numbers below this one. -/
def sizeLimit : Nat := UInt64.size

/-- The limits that are chosen; the others keep their defaults. -/
structure Settings where
  dictionaryObjects : Option Bool := none
  dictionaryThreshold : Option Nat := none
  fastOwnKeys : Option Bool := none
  maxProxyDepth : Option Nat := none
deriving DecidableEq, Repr, Inhabited

def Settings.config (settings : Settings) : Config :=
  let standard : Config := {}
  { dictionaryObjects := settings.dictionaryObjects.getD standard.dictionaryObjects
    dictionaryThreshold := settings.dictionaryThreshold.getD standard.dictionaryThreshold
    fastOwnKeys := settings.fastOwnKeys.getD standard.fastOwnKeys
    maxProxyDepth := settings.maxProxyDepth.getD standard.maxProxyDepth }

end ObjectModel
