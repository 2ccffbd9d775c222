import ObjectModel.Property

/-!
Contract: object layouts and the steps between them.

A layout says which properties an object has, in creation order, with which
attributes and at which slot, and whether more may be added. A `Transition` is
one step from a layout to another; `Layout.apply` computes the result.

Owns: the flags kept for quick answers. `sealed` and `frozen` are set by the steps
of that name and follow later steps; `ordered` says that creation order is
enumeration order.

Does not own: sharing of layouts between objects (`ShapeGraph`).
-/

namespace ObjectModel

/-- One property of a layout. Its value is at `slot` of each object. -/
structure Property where
  key : PropertyKey
  attributes : Attributes
  kind : PropertyKind
  slot : Nat
deriving DecidableEq

structure Layout where
  properties : List Property := []
  slotCount : Nat := 0
  extensible : Bool := true
  sealed : Bool := false
  frozen : Bool := false
  ordered : Bool := true
deriving DecidableEq, Inhabited

/-- A step from one layout to another. -/
inductive Transition where
  | add (key : PropertyKey) (attributes : Attributes) (kind : PropertyKind)
  | remove (key : PropertyKey)
  | reconfigure (key : PropertyKey) (attributes : Attributes) (kind : PropertyKind)
  | preventExtensions
  | seal
  | freeze
deriving DecidableEq

/-- The step that protects the properties to a level. -/
def Transition.protect : Integrity → Transition
  | .sealed => .seal
  | .frozen => .freeze

/-- Whether each key may precede the next one. -/
def inEnumerationOrder : List PropertyKey → Bool
  | first :: second :: rest =>
      first.mayPrecede second && inEnumerationOrder (second :: rest)
  | _ => true

/-- The list with this property: in place of the one with its key, else last. -/
def Property.placeIn (property : Property) : List Property → List Property
  | [] => [property]
  | head :: rest =>
      if head.key = property.key then property :: rest
      else head :: property.placeIn rest

namespace Layout

/-- The layout of a new object. -/
def empty : Layout := {}

def find? (layout : Layout) (key : PropertyKey) : Option Property :=
  layout.properties.find? (·.key = key)

def keys (layout : Layout) : List PropertyKey :=
  layout.properties.map (·.key)

def count (layout : Layout) : Nat :=
  layout.properties.length

/-- The step leads back to the same layout, as its flags and attributes tell. -/
def isUnchangedBy (layout : Layout) : Transition → Bool
  | .preventExtensions => !layout.extensible
  | .seal => layout.sealed
  | .freeze => layout.frozen
  | .reconfigure key attributes kind =>
      (layout.find? key).any fun property =>
        property.attributes = attributes && property.kind = kind
  | .add _ _ _ | .remove _ => false

/-- Whether `key`, added last, keeps the keys in enumeration order. -/
def staysOrdered (layout : Layout) (key : PropertyKey) : Bool :=
  layout.ordered && (layout.properties.getLast?.all fun last => last.key.mayPrecede key)

/-- Every property protected to a level. -/
def protectAll (layout : Layout) (level : Integrity) : List Property :=
  layout.properties.map fun property =>
    { property with attributes := property.attributes.protect level property.kind }

/-- The layout after a step. Removing a property renumbers the slots behind it. -/
def apply (layout : Layout) : Transition → Layout
  | .add key attributes kind =>
      { layout with
        properties := Property.placeIn ⟨key, attributes, kind, layout.slotCount⟩
          layout.properties
        slotCount := layout.slotCount + 1
        ordered := layout.staysOrdered key
        sealed := false
        frozen := false }
  | .remove key =>
      let properties := (layout.properties.filter (·.key ≠ key)).mapIdx
        fun slot property => { property with slot := slot }
      { layout with
        properties := properties
        slotCount := properties.length
        ordered := inEnumerationOrder (properties.map (·.key)) }
  | .reconfigure key attributes kind =>
      let sealed := layout.sealed && !attributes.configurable
      { layout with
        properties := layout.properties.map fun property =>
          if property.key = key then
            { property with attributes := attributes, kind := kind }
          else property
        sealed := sealed
        frozen := sealed && (kind = .accessor || !attributes.writable) }
  | .preventExtensions => { layout with extensible := false }
  | .seal => { layout with properties := layout.protectAll .sealed, sealed := true }
  | .freeze =>
      { layout with
        properties := layout.protectAll .frozen
        sealed := true
        frozen := true }

end Layout

end ObjectModel
