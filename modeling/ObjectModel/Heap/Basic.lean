import ObjectModel.Dictionary
import ObjectModel.Shape.Store

/-!
Contract: objects, and the heap that holds them with their shapes and the stores
that make those.

An object is either backed by a shape, with one slot for each property of the
layout, or by a dictionary of its own. The heap also counts how often each object is
used.

Owns: access to the parts of an object. Does not own: the counts of uses and the
changes that keep them (`Heap.Liveness`), the property store of one object
(`Heap.Storage`) and the algorithms of the language (`Heap.Ordinary`).
-/

namespace ObjectModel

/-- Position of a shape store in the heap. -/
abbrev StoreId := Nat

/-- What a function object does when called: run the code with this number, or
revoke a proxy. -/
inductive FunctionBody where
  | code (number : Nat)
  | revoke (proxy : ObjectId)
deriving DecidableEq

/-- The internal slots of a proxy. -/
structure ProxyLink where
  target : ObjectId
  handler : ObjectId
  revoked : Bool := false
deriving DecidableEq

inductive ObjectKind where
  | ordinary
  | function (name : String) (body : FunctionBody)
  | proxy (link : ProxyLink)
deriving DecidableEq, Inhabited

/-- Where the properties of an object are: in slots that a shape numbers, or in a
table of the object's own. -/
inductive Storage where
  | shaped (shape : ShapeId) (slots : List Slot)
  | dictionary (table : Dictionary)
deriving DecidableEq

instance : Inhabited Storage := ⟨.shaped 0 []⟩

/-- The shape that a storage is built on, none for a dictionary. -/
def Storage.shape? : Storage → Option ShapeId
  | .shaped shape _ => some shape
  | .dictionary _ => none

structure Object where
  store : StoreId
  kind : ObjectKind
  /-- Made the way a literal makes an object; only such an object may become a
  dictionary. -/
  isLiteral : Bool
  prototype : Option ObjectId
  storage : Storage
deriving DecidableEq, Inhabited

structure Heap where
  objects : Array Object := #[]
  /-- How often each object is used: once for each handle that outside code has, and
  once for each reference from an object that is itself used. -/
  uses : Array Nat := #[]
  shapes : ShapeGraph := {}
  stores : Array ShapeStore := #[]
deriving DecidableEq, Inhabited

namespace Heap

def object (heap : Heap) (id : ObjectId) : Object :=
  heap.objects.getD id default

def store (heap : Heap) (id : StoreId) : ShapeStore :=
  heap.stores.getD id default

def kind (heap : Heap) (id : ObjectId) : ObjectKind :=
  (heap.object id).kind

/-- The configuration that an object takes from its store. -/
def config (heap : Heap) (id : ObjectId) : Config :=
  (heap.store (heap.object id).store).config

def prototype (heap : Heap) (id : ObjectId) : Option ObjectId :=
  (heap.object id).prototype

def proxy? (heap : Heap) (id : ObjectId) : Option ProxyLink :=
  match heap.kind id with
  | .proxy link => some link
  | _ => none

/-- The internal methods of an exotic object are not the ordinary ones. -/
def isExotic (heap : Heap) (id : ObjectId) : Bool :=
  (heap.proxy? id).isSome

/-- Whether a chain of proxies of at most `steps` links ends in a function. -/
def isCallableWithin (heap : Heap) : (steps : Nat) → ObjectId → Bool
  | 0, _ => false
  | steps + 1, id =>
      match heap.kind id with
      | .ordinary => false
      | .function _ _ => true
      | .proxy link => heap.isCallableWithin steps link.target

/-- A function, or a proxy of something callable, revoked or not. A proxy is younger
than its target, so no chain of proxies is longer than the heap. -/
def isCallable (heap : Heap) (id : ObjectId) : Bool :=
  heap.isCallableWithin heap.objects.size id

/-- Whether a value can be called. -/
def isFunction (heap : Heap) : Value → Bool
  | .object id => heap.isCallable id
  | _ => false

/-- How messages name an object. -/
def objectName (heap : Heap) (id : ObjectId) : String :=
  match heap.kind id with
  | .ordinary => "[Object]"
  | .function _ _ => "[Function]"
  | .proxy _ => "[Proxy]"

end Heap

end ObjectModel
