import ObjectModel.Heap.Storage

/-!
Contract: prototype chains.

A walk follows the stored links of ordinary objects and ends at the first exotic
object, whose own internal methods decide what comes next. Links of ordinary
objects never close a cycle (`admitsPrototype` guards them), so a walk visits each
object at most once and the size of the heap bounds its length.
-/

namespace ObjectModel

/-- One object of a walk. -/
inductive ChainStep where
  | ordinary (id : ObjectId)
  | exotic (id : ObjectId)
deriving DecidableEq

/-- What a walk finds for a key. -/
inductive ChainResult where
  /-- The first own property, and the object that has it. -/
  | found (holder : ObjectId) (attributes : Attributes) (slot : Slot)
  /-- An exotic object comes first; the rest of the lookup is up to it. -/
  | exotic (id : ObjectId)
  | missing
deriving DecidableEq

namespace Heap

/-- The walk from `start`, at most `steps` objects long. -/
def walkWithin (heap : Heap) : (steps : Nat) → Option ObjectId → List ChainStep
  | 0, _ => []
  | _, none => []
  | steps + 1, some id =>
      if heap.isExotic id then [.exotic id]
      else .ordinary id :: heap.walkWithin steps (heap.prototype id)

/-- The prototype chain from `start` on, `start` included. -/
def walk (heap : Heap) (start : Option ObjectId) : List ChainStep :=
  heap.walkWithin heap.objects.size start

/-- The first thing on a walk that answers for a key. -/
def searchChain (heap : Heap) (key : PropertyKey) : List ChainStep → ChainResult
  | [] => .missing
  | .exotic id :: _ => .exotic id
  | .ordinary id :: rest =>
      match heap.lookup id key with
      | some (attributes, slot) => .found id attributes slot
      | none => heap.searchChain key rest

/-- What answers for a key on an object and its prototypes. -/
def findProperty (heap : Heap) (id : ObjectId) (key : PropertyKey) : ChainResult :=
  heap.searchChain key (heap.walk (some id))

/-- What a walk has in hand when it stops at a property: the object that has it, the
next object of the chain, and what the property refers to. -/
def inHand (heap : Heap) (holder : ObjectId) (slot : Slot) : List ObjectId :=
  holder :: ((heap.prototype holder).toList ++ slot.references)

/-- Whether `id` may take this prototype: it must not be reached from it through
ordinary objects. An exotic object on the way ends the search. -/
def admitsPrototype (heap : Heap) (id : ObjectId) (prototype : Option ObjectId) : Bool :=
  (heap.walk prototype).all (· ≠ .ordinary id)

end Heap

end ObjectModel
