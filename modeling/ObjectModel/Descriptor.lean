import ObjectModel.Property

/-!
Contract: property descriptors, the partial records that describe and change
properties.

Every field is optional, and an absent field is not a default: defining a
property touches only the fields that are present. `complete` gives the absent
fields of a description of a whole property their defaults.
-/

namespace ObjectModel

/-- A partial description of a property. `get` and `set` hold a function or
`undefined` in a valid description. -/
structure Descriptor where
  value : Option Value := none
  writable : Option Bool := none
  get : Option Value := none
  set : Option Value := none
  enumerable : Option Bool := none
  configurable : Option Bool := none
deriving DecidableEq, Inhabited

namespace Descriptor

def empty : Descriptor := {}

/-- The full description of a data property. -/
def data (value : Value) (attributes : Attributes) : Descriptor :=
  { value := some value
    writable := some attributes.writable
    enumerable := some attributes.enumerable
    configurable := some attributes.configurable }

/-- The full description of an accessor property. -/
def accessor (getter setter : Option ObjectId) (enumerable configurable : Bool) :
    Descriptor :=
  { get := some (.ofObjectOrUndefined getter)
    set := some (.ofObjectOrUndefined setter)
    enumerable := some enumerable
    configurable := some configurable }

/-- The full description of a stored property. -/
def ofStored (attributes : Attributes) : Slot → Descriptor
  | .data value => .data value attributes
  | .accessor getter setter =>
      .accessor getter setter attributes.enumerable attributes.configurable

def isData (descriptor : Descriptor) : Bool :=
  descriptor.value.isSome || descriptor.writable.isSome

def isAccessor (descriptor : Descriptor) : Bool :=
  descriptor.get.isSome || descriptor.set.isSome

/-- Neither a data nor an accessor field is present. -/
def isGeneric (descriptor : Descriptor) : Bool :=
  !descriptor.isData && !descriptor.isAccessor

/-- Data and accessor fields are both present. No property has such a
description. -/
def isMixed (descriptor : Descriptor) : Bool :=
  descriptor.isData && descriptor.isAccessor

/-- No field is present. -/
def isEmpty (descriptor : Descriptor) : Bool :=
  descriptor.isGeneric && descriptor.enumerable.isNone && descriptor.configurable.isNone

def isWritable (descriptor : Descriptor) : Bool := descriptor.writable.getD false
def isEnumerable (descriptor : Descriptor) : Bool := descriptor.enumerable.getD false
def isConfigurable (descriptor : Descriptor) : Bool := descriptor.configurable.getD false

/-- The setter, if one is present and is an object. -/
def setter? (descriptor : Descriptor) : Option ObjectId :=
  descriptor.set.bind Value.object?

/-- The getter, if one is present and is an object. -/
def getter? (descriptor : Descriptor) : Option ObjectId :=
  descriptor.get.bind Value.object?

/-- CompletePropertyDescriptor: every absent field of the described kind gets its
default. A generic description counts as data. -/
def complete (descriptor : Descriptor) : Descriptor :=
  let kindComplete :=
    if descriptor.isGeneric || descriptor.isData then
      { descriptor with
        value := some (descriptor.value.getD .undefined)
        writable := some (descriptor.writable.getD false) }
    else
      { descriptor with
        get := some (descriptor.get.getD .undefined)
        set := some (descriptor.set.getD .undefined) }
  { kindComplete with
    enumerable := some (descriptor.enumerable.getD false)
    configurable := some (descriptor.configurable.getD false) }

/-- The present fields by name, in the order in which descriptions are read and
written. -/
def fields (descriptor : Descriptor) : List (String × Value) :=
  [("value", descriptor.value), ("writable", descriptor.writable.map .boolean),
    ("get", descriptor.get), ("set", descriptor.set),
    ("enumerable", descriptor.enumerable.map .boolean),
    ("configurable", descriptor.configurable.map .boolean)].filterMap
    fun (name, field) => field.map (name, ·)

end Descriptor

end ObjectModel
