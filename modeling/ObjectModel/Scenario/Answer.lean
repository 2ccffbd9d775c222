import ObjectModel.Scenario.Step

/-!
Contract: what steps answer.

An `Answer` holds plain values of the model. Where it is written, objects and
symbols go by labels; `Answer.mentions` lists them in the order in which they are
written, and so in the order in which new ones get their labels.
-/

namespace ObjectModel.Scenario

/-- What has a label: an object or a symbol. -/
inductive Named where
  | object (id : ObjectId)
  | symbol (id : Nat)
deriving DecidableEq, Hashable

/-- What is to be known about a descriptor. -/
structure DescriptorInfo where
  descriptor : Descriptor
  complete : Descriptor

structure ValueInfo where
  value : Value
  isCallable : Bool
  display : String

/-- An object that is no proxy, part by part. -/
structure ObjectInfo where
  /-- The name of a function object. -/
  function : Option String
  isCallable : Bool
  isExotic : Bool
  isLiteral : Bool
  prototype : Option ObjectId
  isExtensible : Bool
  isDictionary : Bool
  count : Nat
  properties : List (PropertyKey × Option Descriptor)
  layout : Option Layout

structure ProxyInfo where
  isCallable : Bool
  isExotic : Bool
  link : ProxyLink
  display : String

inductive Answer where
  | nothing
  | flag (value : Bool)
  | optionalFlag (value : Option Bool)
  | value (value : Value)
  | objectOrNull (id : Option ObjectId)
  | descriptor (descriptor : Option Descriptor)
  | found (value : Option Value)
  | keys (keys : List PropertyKey)
  | descriptorInfo (info : DescriptorInfo)
  | valueInfo (info : ValueInfo)
  | keyInfo (key : PropertyKey)
  | keyOrder (order : Ordering) (equal : Bool)
  | protections (sealed frozenData frozenAccessor : Attributes)
  | exchange (initial : PropertyKey) (lentDisplay : String)
      (old current : PropertyKey) (display : String)
  | chain (steps : List ChainStep)
  | object (info : ObjectInfo)
  | proxy (info : ProxyInfo)
  | mode (isDictionary : Bool) (count : Nat)
  | count (number : Nat)
  | text (text : String)
  | shape (layout : Option Layout)
  | transition (number : Nat) (parent : Option Nat) (layout : Layout)
  | property (property : Option Property)
  | entry (entry : Option DictionaryEntry)
  | entries (entries : List (PropertyKey × DictionaryEntry))

end Scenario

open Scenario

/-- The object or symbol that a value is. -/
def Value.named : Value → List Named
  | .object id => [.object id]
  | .symbol token => [.symbol token.id]
  | _ => []

def PropertyKey.named : PropertyKey → List Named
  | .symbol token => [.symbol token.id]
  | _ => []

def Descriptor.named (descriptor : Descriptor) : List Named :=
  descriptor.fields.flatMap fun (_, value) => value.named

def Slot.named : Slot → List Named
  | .data value => value.named
  | .accessor getter setter => getter.toList.map .object ++ setter.toList.map .object

def Layout.named (layout : Layout) : List Named :=
  layout.keys.flatMap PropertyKey.named

namespace Scenario

/-- The objects and symbols of an answer in the order of writing. -/
def Answer.mentions : Answer → List Named
  | .value answer => answer.named
  | .objectOrNull id => id.toList.map .object
  | .descriptor answer => answer.toList.flatMap Descriptor.named
  | .found answer => answer.toList.flatMap Value.named
  | .keys listed => listed.flatMap PropertyKey.named
  | .descriptorInfo info =>
      info.descriptor.setter?.toList.map .object ++ info.complete.named
  | .keyInfo key => key.named
  | .exchange initial _ old current _ => initial.named ++ old.named ++ current.named
  | .chain steps => steps.map fun
      | .ordinary id => .object id
      | .exotic id => .object id
  | .object info =>
      info.prototype.toList.map .object
        ++ info.properties.flatMap (fun (key, description) =>
          key.named ++ description.toList.flatMap Descriptor.named)
        ++ info.layout.toList.flatMap Layout.named
  | .proxy info =>
      (if info.link.revoked then []
        else [.object info.link.target, .object info.link.handler])
        ++ [.object info.link.target]
  | .shape layout => layout.toList.flatMap Layout.named
  | .transition _ _ layout => layout.named
  | .property answer => answer.toList.flatMap (·.key.named)
  | .entry answer => answer.toList.flatMap (·.slot.named)
  | .entries listed =>
      listed.flatMap fun (key, stored) => key.named ++ stored.slot.named
  | _ => []

end Scenario

end ObjectModel
