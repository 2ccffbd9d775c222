import ObjectModel.Key

/-!
Contract: what an object stores for one property.

The attributes say what may happen to the property. The slot holds its value, or
the getter and setter of an accessor.
-/

namespace ObjectModel

/-- Whether a property may be written, is enumerated, and may be deleted or
redefined. The writable attribute means nothing for an accessor. -/
structure Attributes where
  writable : Bool
  enumerable : Bool
  configurable : Bool
deriving DecidableEq, Repr

inductive PropertyKind where
  | data
  | accessor
deriving DecidableEq, Repr

/-- How far the properties of an object are protected from change. -/
inductive Integrity where
  | sealed
  | frozen
deriving DecidableEq, Repr

namespace Attributes

/-- Attributes of a property made by assignment. -/
def assigned : Attributes := ⟨true, true, true⟩

/-- These attributes after sealing. -/
def sealed (attributes : Attributes) : Attributes :=
  { attributes with configurable := false }

/-- These attributes after freezing a property of this kind. -/
def frozen (attributes : Attributes) : PropertyKind → Attributes
  | .data => { attributes with writable := false, configurable := false }
  | .accessor => { attributes with configurable := false }

/-- These attributes after an object is protected to a level. -/
def protect (attributes : Attributes) : Integrity → PropertyKind → Attributes
  | .sealed, _ => attributes.sealed
  | .frozen, kind => attributes.frozen kind

/-- The form in which a property of this kind stores its attributes: an accessor
has no writable attribute, and keeps the bit cleared. -/
def stored (attributes : Attributes) : PropertyKind → Attributes
  | .data => attributes
  | .accessor => { attributes with writable := false }

end Attributes

/-- The storage cell of one property. -/
inductive Slot where
  | data (value : Value)
  | accessor (getter setter : Option ObjectId)
deriving DecidableEq, Inhabited

def Slot.kind : Slot → PropertyKind
  | .data _ => .data
  | .accessor _ _ => .accessor

end ObjectModel
