import ObjectModel.Descriptor
import ObjectModel.Error
import ObjectModel.Heap.Prototype

/-!
Contract: the algorithms of ordinary objects that concern one object and run no
user code.

`Descriptor.refusal?` is the validation half of a definition and
`Descriptor.stored?` computes what an accepted one stores, which may fail on the new
accessor functions. Both look only at descriptions; `Heap.storeProperty` changes the
object after both.

Does not own: lookups that may call getters, setters or proxies (`Machine`).
-/

namespace ObjectModel

/-- Whether a field may become `new` when it has to keep its value `current`. -/
def sameField (new current : Option Value) : Bool :=
  match new, current with
  | none, _ => true
  | some new, some current => new.same current
  | some new, none => new.isUndefined

namespace Descriptor

/-- Whether an existing property that `current` describes may be changed by
`change`. A configurable property takes any change. Otherwise the property stays
non-configurable and keeps its enumerability and kind; an accessor keeps its
functions, and a non-writable value stays as it is. -/
def admits (current change : Descriptor) : Bool :=
  current.isConfigurable ||
    (change.configurable ≠ some true
      && change.enumerable.all (· = current.isEnumerable)
      && (change.isGeneric || change.isAccessor = current.isAccessor)
      && if current.isAccessor then
          sameField change.get current.get && sameField change.set current.set
        else
          current.isWritable ||
            (change.writable ≠ some true && sameField change.value current.value))

/-- Why a definition is refused, if it is. A property that does not exist yet can be
defined on an extensible object only. -/
def refusal? (key : PropertyKey) (extensible : Bool) (current : Option Descriptor)
    (change : Descriptor) : Option TypeFault :=
  match current with
  | none => if extensible then none else some (.notExtensible key)
  | some current => if current.admits change then none else some (.cannotRedefine key)

/-- IsCompatiblePropertyDescriptor. -/
def isCompatible (key : PropertyKey) (extensible : Bool) (current : Option Descriptor)
    (change : Descriptor) : Bool :=
  (change.refusal? key extensible current).isNone

/-- The function that an accessor field names: none for `undefined`, an error for
anything else that cannot be called. -/
def accessorFunction (callable : ObjectId → Bool) (role : AccessorRole) (value : Value) :
    Except TypeFault (Option ObjectId) :=
  match value with
  | .undefined => .ok none
  | .object id =>
      if callable id then .ok (some id) else .error (.accessorNotFunction role value)
  | _ => .error (.accessorNotFunction role value)

/-- The accessor slot that a change describes. An absent field keeps the function of
`current`. -/
def accessorSlot (callable : ObjectId → Bool) (change : Descriptor)
    (current : Option Descriptor) : Except TypeFault Slot := do
  let getter ← match change.get with
    | some value => accessorFunction callable .getter value
    | none => .ok (current.bind getter?)
  let setter ← match change.set with
    | some value => accessorFunction callable .setter value
    | none => .ok (current.bind setter?)
  return .accessor getter setter

/-- What is stored for a property that did not exist: absent fields have their
defaults. -/
def create (callable : ObjectId → Bool) (change : Descriptor) :
    Except TypeFault (Attributes × Slot) := do
  let attributes : Attributes :=
    ⟨change.isWritable, change.isEnumerable, change.isConfigurable⟩
  if change.isAccessor then
    return (attributes, ← change.accessorSlot callable none)
  else
    return (attributes, .data (change.value.getD .undefined))

/-- What is stored for an existing property after a change. Absent fields keep their
value; on a change of kind, those of the new kind have their defaults. -/
def merge (callable : ObjectId → Bool) (current change : Descriptor) :
    Except TypeFault (Attributes × Slot) := do
  let enumerable := change.enumerable.getD current.isEnumerable
  let configurable := change.configurable.getD current.isConfigurable
  if current.isData && change.isAccessor then
    return (⟨false, enumerable, configurable⟩, ← change.accessorSlot callable none)
  else if current.isAccessor && change.isData then
    return (⟨change.isWritable, enumerable, configurable⟩,
      .data (change.value.getD .undefined))
  else if current.isAccessor then
    return (⟨false, enumerable, configurable⟩,
      ← change.accessorSlot callable (some current))
  else
    return (⟨change.writable.getD current.isWritable, enumerable, configurable⟩,
      .data ((change.value <|> current.value).getD .undefined))

/-- What an accepted change stores, for a new property or the one that `current`
describes. A change without fields stores nothing for an existing property. -/
def stored? (callable : ObjectId → Bool) (current : Option Descriptor)
    (change : Descriptor) : Except TypeFault (Option (Attributes × Slot)) :=
  match current with
  | none => (change.create callable).map some
  | some current =>
      if change.isEmpty then .ok none else (current.merge callable change).map some

end Descriptor

namespace Heap

/-- The full description of an own property. -/
def getOwn (heap : Heap) (id : ObjectId) (key : PropertyKey) : Option Descriptor :=
  (heap.lookup id key).map fun (attributes, slot) => .ofStored attributes slot

/-- Stores an existing property after a change. A value whose attributes stay as
`current` says is written in place. -/
def storeMerged (heap : Heap) (id : ObjectId) (key : PropertyKey) (current : Descriptor)
    (attributes : Attributes) (slot : Slot) : Heap :=
  match slot with
  | .data value =>
      if !current.isAccessor && heap.hasData id key
          && attributes = ⟨current.isWritable, current.isEnumerable, current.isConfigurable⟩
      then heap.writeData id key value
      else heap.replaceProperty id key attributes slot
  | .accessor _ _ => heap.replaceProperty id key attributes slot

/-- Stores a property that did not exist, or the one that `current` described, after a
change. -/
def storeProperty (heap : Heap) (id : ObjectId) (key : PropertyKey)
    (current : Option Descriptor) (attributes : Attributes) (slot : Slot) : Heap :=
  match current with
  | none => heap.addProperty id key attributes slot
  | some current => heap.storeMerged id key current attributes slot

/-- ValidateAndApplyPropertyDescriptor: the change validated against `current` and
`extensible`, and then made on `target`, if there is one. -/
def validateAndApply (heap : Heap) (target : Option ObjectId) (key : PropertyKey)
    (extensible : Bool) (change : Descriptor) (current : Option Descriptor) :
    Heap × Except TypeFault Verdict :=
  match change.refusal? key extensible current with
  | some reason => (heap, .ok (.refused reason))
  | none =>
      match target with
      | none => (heap, .ok .accepted)
      | some id =>
          match change.stored? heap.isCallable current with
          | .error fault => (heap, .error fault)
          | .ok none => (heap, .ok .accepted)
          | .ok (some (attributes, slot)) =>
              (heap.storeProperty id key current attributes slot, .ok .accepted)

/-- OrdinaryDefineOwnProperty. -/
def defineOwn (heap : Heap) (id : ObjectId) (key : PropertyKey) (change : Descriptor) :
    Heap × Except TypeFault Verdict :=
  heap.validateAndApply (some id) key (heap.isExtensible id) change (heap.getOwn id key)

/-- OrdinaryDelete: an absent property counts as deleted. -/
def deleteOwn (heap : Heap) (id : ObjectId) (key : PropertyKey) : Heap × Verdict :=
  match heap.lookup id key with
  | none => (heap, .accepted)
  | some (attributes, _) =>
      if attributes.configurable then (heap.removeProperty id key, .accepted)
      else (heap, .refused (.undeletable key))

/-- OrdinaryOwnPropertyKeys, in enumeration order. -/
def ownKeys (heap : Heap) (id : ObjectId) : List PropertyKey :=
  if heap.keysOrdered id && (heap.config id).fastOwnKeys then heap.keys id
  else PropertyKey.sorted (heap.keys id)

/-- OrdinarySetPrototypeOf. A non-extensible object keeps its prototype. -/
def setPrototypeOf (heap : Heap) (id : ObjectId) (prototype : Option ObjectId) :
    Heap × Bool :=
  if heap.prototype id = prototype then (heap, true)
  else if heap.isExtensible id && heap.admitsPrototype id prototype then
    (heap.setPrototype id prototype, true)
  else (heap, false)

/-- SetIntegrityLevel of an ordinary object. -/
def setIntegrity (heap : Heap) (id : ObjectId) (level : Integrity) : Heap :=
  (heap.protectProperties id level).preventExtensions id

/-- The integrity flags of a layout settle a level at once. -/
def layoutHasIntegrity (layout : Layout) (level : Integrity) : Bool :=
  layout.frozen || (layout.sealed && level = .sealed)

/-- Whether a stored property is protected to a level. -/
def isProtected (level : Integrity) (attributes : Attributes) (slot : Slot) : Bool :=
  !attributes.configurable &&
    !(level = .frozen && slot.kind = .data && attributes.writable)

/-- TestIntegrityLevel of an ordinary object: the flags of its layout, or else a scan
of its properties. -/
def testIntegrity (heap : Heap) (id : ObjectId) (level : Integrity) : Bool :=
  !heap.isExtensible id &&
    ((heap.layout? id).any (layoutHasIntegrity · level) ||
      (heap.keys id).all fun key =>
        (heap.lookup id key).all fun (attributes, slot) =>
          isProtected level attributes slot)

/-- A new plain object with the present fields of a description as its properties. -/
def describe (heap : Heap) (store : StoreId) (descriptor : Descriptor) :
    Heap × ObjectId :=
  let (start, id) := heap.allocate store .ordinary none false
  (descriptor.fields.foldl (fun heap (name, value) =>
    heap.addProperty id (.ofString name) .assigned (.data value)) start, id)

end Heap

end ObjectModel
