import ObjectModel.Descriptor
import ObjectModel.Heap.Basic

/-!
Contract: which objects and shapes are in use, and the changes that keep count of it.

An object is in use as long as outside code has a handle to it, or an object in use
refers to it through its prototype, a property or its proxy link. Nothing looks for
rings of objects: objects that refer to each other around a ring keep each other in
use, also when nothing else refers to them any more.

An object in use is a user of the shape that it is built on.

Only an object in use counts its references. They are counted when it comes into use
and given up when its last use ends, so the counts of a heap always agree with its
objects, whatever the order of the changes.
-/

namespace ObjectModel

/-- The objects that a value keeps in use. -/
def Value.references (value : Value) : List ObjectId :=
  value.object?.toList

def Slot.references : Slot → List ObjectId
  | .data value => value.references
  | .accessor getter setter => getter.toList ++ setter.toList

def Descriptor.references (descriptor : Descriptor) : List ObjectId :=
  (descriptor.value.toList ++ descriptor.get.toList ++ descriptor.set.toList).flatMap
    Value.references

def Dictionary.references (dictionary : Dictionary) : List ObjectId :=
  dictionary.entries.flatMap fun placed => placed.entry.slot.references

def ObjectKind.references : ObjectKind → List ObjectId
  | .proxy link => [link.target, link.handler]
  | _ => []

/-- What a method of a proxy has in hand once it found the function of its trap. -/
def ProxyLink.inHand (link : ProxyLink) (function : ObjectId) : List ObjectId :=
  [link.target, link.handler, function]

def Storage.references : Storage → List ObjectId
  | .shaped _ slots => slots.flatMap Slot.references
  | .dictionary table => table.references

/-- The objects that an object keeps in use. A revoke function does not keep its
proxy. -/
def Object.references (object : Object) : List ObjectId :=
  object.prototype.toList ++ object.kind.references ++ object.storage.references

/-- One more use of each listed object. Objects that had none are added to `found`. -/
def addUses : List ObjectId → (found : List ObjectId) → (uses : Array Nat) →
    List ObjectId × Array Nat
  | [], found, uses => (found, uses)
  | id :: rest, found, uses =>
      let found := if uses.getD id 0 = 0 then id :: found else found
      addUses rest found (uses.modify id (· + 1))

/-- One use less of each listed object. Objects that lose their last one are added to
`lost`. -/
def dropUses : List ObjectId → (lost : List ObjectId) → (uses : Array Nat) →
    List ObjectId × Array Nat
  | [], lost, uses => (lost, uses)
  | id :: rest, lost, uses =>
      let lost := if uses.getD id 0 = 1 then id :: lost else lost
      dropUses rest lost (uses.modify id (· - 1))

namespace Heap

def isInUse (heap : Heap) (id : ObjectId) : Bool :=
  heap.uses.getD id 0 ≠ 0

/-- Counts the references of objects that came into use, and of those that came into
use by that, for at most `steps` objects. -/
def adopt : (steps : Nat) → (found : List ObjectId) → Heap → Heap
  | steps + 1, id :: rest, ⟨objects, uses, shapes, stores⟩ =>
      let object := objects.getD id default
      let (found, uses) := addUses object.references rest uses
      let shapes := object.storage.shape?.toList.foldl ShapeGraph.retain shapes
      adopt steps found ⟨objects, uses, shapes, stores⟩
  | _, _, heap => heap

/-- Gives up the references of objects that are no longer in use, and of those that
they were the last to use, for at most `steps` objects. -/
def dismiss : (steps : Nat) → (lost : List ObjectId) → Heap → Heap
  | steps + 1, id :: rest, ⟨objects, uses, shapes, stores⟩ =>
      let object := objects.getD id default
      let (lost, uses) := dropUses object.references rest uses
      let shapes := object.storage.shape?.toList.foldl ShapeGraph.release shapes
      dismiss steps lost ⟨objects, uses, shapes, stores⟩
  | _, _, heap => heap

/-- One more use of each listed object. Every object comes into use at most once, so
the number of objects bounds the steps. -/
def holdAll : Heap → List ObjectId → Heap
  | ⟨objects, uses, shapes, stores⟩, ids =>
      let (found, uses) := addUses ids [] uses
      adopt objects.size found ⟨objects, uses, shapes, stores⟩

/-- One use less of each listed object. Every object goes out of use at most once. -/
def releaseAll : Heap → List ObjectId → Heap
  | ⟨objects, uses, shapes, stores⟩, ids =>
      let (lost, uses) := dropUses ids [] uses
      dismiss objects.size lost ⟨objects, uses, shapes, stores⟩

/-- One more handle to an object. -/
def hold (heap : Heap) (id : ObjectId) : Heap :=
  heap.holdAll [id]

/-- One handle to an object given up. -/
def release (heap : Heap) (id : ObjectId) : Heap :=
  heap.releaseAll [id]

/-- One more handle to a shape. -/
def holdShape (heap : Heap) (shape : ShapeId) : Heap :=
  { heap with shapes := heap.shapes.retain shape }

/-- One handle to a shape given up. -/
def releaseShape (heap : Heap) (shape : ShapeId) : Heap :=
  { heap with shapes := heap.shapes.release shape }

/-- An object replaced. If it is in use, what the new one refers to is used before
the old references are given up. -/
def setObject (heap : Heap) (id : ObjectId) (object : Object) : Heap :=
  let replaced := heap.object id
  let counts := heap.isInUse id
  let heap :=
    if counts then
      object.storage.shape?.toList.foldl holdShape (heap.holdAll object.references)
    else heap
  let heap := { heap with objects := heap.objects.setIfInBounds id object }
  if counts then
    replaced.storage.shape?.toList.foldl releaseShape
      (heap.releaseAll replaced.references)
  else heap

def setStorage (heap : Heap) (id : ObjectId) (storage : Storage) : Heap :=
  heap.setObject id { heap.object id with storage := storage }

def setPrototype (heap : Heap) (id : ObjectId) (prototype : Option ObjectId) : Heap :=
  heap.setObject id { heap.object id with prototype := prototype }

/-- Revokes a proxy; other objects stay as they are. -/
def revoke (heap : Heap) (id : ObjectId) : Heap :=
  match heap.proxy? id with
  | some link =>
      heap.setObject id
        { heap.object id with kind := .proxy { link with revoked := true } }
  | none => heap

/-- A new shape store with a root shape of its own. -/
def addStore : Heap → Config → Heap × StoreId
  | ⟨objects, uses, shapes, stores⟩, config =>
      let made := stores.size
      let (shapes, root) := shapes.addRoot
      (⟨objects, uses, shapes, stores.push { config := config, root := root }⟩, made)

/-- A new object without properties, on the root shape of its store. Its maker has a
handle to it. -/
def allocate (heap : Heap) (store : StoreId) (kind : ObjectKind)
    (prototype : Option ObjectId) (isLiteral : Bool) : Heap × ObjectId :=
  let object : Object :=
    { store := store, kind := kind, isLiteral := isLiteral, prototype := prototype
      storage := .shaped (heap.store store).root [] }
  let made := heap.objects.size
  (Heap.hold
    { heap with objects := heap.objects.push object, uses := heap.uses.push 0 } made,
    made)

end Heap

end ObjectModel
