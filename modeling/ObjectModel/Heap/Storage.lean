import ObjectModel.Heap.Liveness

/-!
Contract: the raw property store of one object.

These operations run no code of users and never look at the prototype. They do not
check attributes: what may be done to a property is decided in `Heap.Ordinary`.

An object that was made as a literal leaves its shape for a dictionary when a new
property would make its layout too large, or when its first property is an array
index. It never returns.
-/

namespace ObjectModel.Heap

def layout (heap : Heap) (shape : ShapeId) : Layout :=
  heap.shapes.layout shape

/-- The shape of an object, none in dictionary mode. -/
def shape? (heap : Heap) (id : ObjectId) : Option ShapeId :=
  (heap.object id).storage.shape?

/-- The layout of an object, none in dictionary mode. -/
def layout? (heap : Heap) (id : ObjectId) : Option Layout :=
  (heap.shape? id).map heap.layout

def isDictionary (heap : Heap) (id : ObjectId) : Bool :=
  (heap.shape? id).isNone

/-- Attributes and slot of an own property. -/
def lookup (heap : Heap) (id : ObjectId) (key : PropertyKey) :
    Option (Attributes × Slot) :=
  let object := heap.object id
  match object.storage with
  | .shaped shape slots =>
      ((heap.layout shape).find? key).map fun property =>
        (property.attributes, slots.getD property.slot default)
  | .dictionary table =>
      (table.get? key).map fun entry => (entry.attributes, entry.slot)

/-- Own keys in creation order. -/
def keys (heap : Heap) (id : ObjectId) : List PropertyKey :=
  let object := heap.object id
  match object.storage with
  | .shaped shape _ => (heap.layout shape).keys
  | .dictionary table => table.keys

/-- Whether creation order is known to be enumeration order. -/
def keysOrdered (heap : Heap) (id : ObjectId) : Bool :=
  (heap.layout? id).any (·.ordered)

def propertyCount (heap : Heap) (id : ObjectId) : Nat :=
  let object := heap.object id
  match object.storage with
  | .shaped shape _ => (heap.layout shape).count
  | .dictionary table => table.count

/-- Whether properties may be added. -/
def isExtensible (heap : Heap) (id : ObjectId) : Bool :=
  let object := heap.object id
  match object.storage with
  | .shaped shape _ => (heap.layout shape).extensible
  | .dictionary table => table.extensible

/-- Whether an object has an own data property for a key. -/
def hasData (heap : Heap) (id : ObjectId) (key : PropertyKey) : Bool :=
  let object := heap.object id
  match object.storage with
  | .shaped shape _ =>
      ((heap.layout shape).find? key).any (·.kind = .data)
  | .dictionary table => (table.get? key).any (·.slot.kind = .data)

/-- One step of a shape, taken by a store of the heap. -/
def transition : Heap → StoreId → ShapeId → Transition → Heap × ShapeId
  | ⟨objects, uses, shapes, stores⟩, storeId, shape, step =>
      let (store, shapes, target) :=
        (stores.getD storeId default).transition shapes shape step
      (⟨objects, uses, shapes, stores.setIfInBounds storeId store⟩, target)

/-- The value of an own data property replaced. Without such a property nothing
changes. -/
def writeData (heap : Heap) (id : ObjectId) (key : PropertyKey) (value : Value) : Heap :=
  let object := heap.object id
  match object.storage with
  | .shaped shape slots =>
      match (heap.layout shape).find? key with
      | some property =>
          if property.kind = .data then
            heap.setStorage id (.shaped shape (slots.set property.slot (.data value)))
          else heap
      | none => heap
  | .dictionary table =>
      match table.get? key with
      | some entry =>
          if entry.slot.kind = .data then
            heap.setStorage id (.dictionary (table.update key ⟨entry.attributes, .data value⟩))
          else heap
      | none => heap

/-- Whether adding `key` makes an object with this layout a dictionary. -/
def becomesDictionary (config : Config) (isLiteral : Bool) (layout : Layout)
    (key : PropertyKey) : Bool :=
  config.dictionaryObjects && isLiteral &&
    ((layout.count = 0 && key.isIndex) || config.dictionaryThreshold ≤ layout.count)

/-- A property added that the object does not have. -/
def addProperty (heap : Heap) (id : ObjectId) (key : PropertyKey)
    (attributes : Attributes) (slot : Slot) : Heap :=
  let object := heap.object id
  let stored := attributes.stored slot.kind
  match object.storage with
  | .shaped shape slots =>
      let layout := heap.layout shape
      if becomesDictionary (heap.config id) object.isLiteral layout key then
        heap.setStorage id
          (.dictionary ((Dictionary.ofLayout layout slots).insert key ⟨stored, slot⟩))
      else
        let (grown, target) := heap.transition object.store shape (.add key stored slot.kind)
        grown.setStorage id (.shaped target (slots ++ [slot]))
  | .dictionary table =>
      heap.setStorage id (.dictionary (table.insert key ⟨stored, slot⟩))

/-- Attributes and slot of an own property replaced. Without the property nothing
changes. -/
def replaceProperty (heap : Heap) (id : ObjectId) (key : PropertyKey)
    (attributes : Attributes) (slot : Slot) : Heap :=
  let object := heap.object id
  let stored := attributes.stored slot.kind
  match object.storage with
  | .shaped shape slots =>
      match (heap.layout shape).find? key with
      | some property =>
          let (grown, target) :=
            heap.transition object.store shape (.reconfigure key stored slot.kind)
          grown.setStorage id (.shaped target (slots.set property.slot slot))
      | none => heap
  | .dictionary table =>
      heap.setStorage id (.dictionary (table.update key ⟨stored, slot⟩))

/-- An own property removed. Without the property nothing changes. -/
def removeProperty (heap : Heap) (id : ObjectId) (key : PropertyKey) : Heap :=
  let object := heap.object id
  match object.storage with
  | .shaped shape slots =>
      match (heap.layout shape).find? key with
      | some property =>
          let (grown, target) := heap.transition object.store shape (.remove key)
          grown.setStorage id (.shaped target (slots.eraseIdx property.slot))
      | none => heap
  | .dictionary table => heap.setStorage id (.dictionary (table.erase key))

/-- No property can be added any more. -/
def preventExtensions (heap : Heap) (id : ObjectId) : Heap :=
  let object := heap.object id
  match object.storage with
  | .shaped shape slots =>
      let (grown, target) := heap.transition object.store shape .preventExtensions
      grown.setStorage id (.shaped target slots)
  | .dictionary table => heap.setStorage id (.dictionary table.preventExtensions)

/-- Every own property protected to a level. Extensibility stays as it is. -/
def protectProperties (heap : Heap) (id : ObjectId) (level : Integrity) : Heap :=
  let object := heap.object id
  match object.storage with
  | .shaped shape slots =>
      let (grown, target) := heap.transition object.store shape (.protect level)
      grown.setStorage id (.shaped target slots)
  | .dictionary table => heap.setStorage id (.dictionary (table.protect level))

end ObjectModel.Heap
