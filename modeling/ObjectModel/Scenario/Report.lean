import ObjectModel.Scenario.Session

/-!
Contract: reports on parts of a heap, for answers.
-/

namespace ObjectModel

/-- The text of a shape: its number, its keys and its flags. -/
def Shape.display (shape : Shape) : String :=
  let layout := shape.layout
  let flag (value : Bool) : String := if value then "true" else "false"
  "Shape \x7b id: " ++ toString shape.number
    ++ ", keys: [" ++ ", ".intercalate (layout.keys.map PropertyKey.quotedText)
    ++ "], extensible: " ++ flag layout.extensible
    ++ ", sealed: " ++ flag layout.sealed
    ++ ", frozen: " ++ flag layout.frozen ++ " \x7d"

namespace Heap

/-- The text of a proxy's link. -/
def linkDisplay (heap : Heap) (link : ProxyLink) : String :=
  if link.revoked then "Proxy \x7b <revoked> \x7d"
  else "Proxy \x7b target: " ++ heap.objectName link.target ++ " \x7d"

open Scenario

def valueInfo (heap : Heap) (value : Value) : ValueInfo :=
  ⟨value, heap.isFunction value, value.display heap.objectName⟩

/-- The whole state of an object. -/
def objectAnswer (heap : Heap) (id : ObjectId) : Answer :=
  let report (function : Option String) : Answer := .object
    { function := function
      isCallable := heap.isCallable id
      isExotic := heap.isExotic id
      isLiteral := (heap.object id).isLiteral
      prototype := heap.prototype id
      isExtensible := heap.isExtensible id
      isDictionary := heap.isDictionary id
      count := heap.propertyCount id
      properties := (heap.ownKeys id).map fun key => (key, heap.getOwn id key)
      layout := heap.layout? id }
  match heap.kind id with
  | .ordinary => report none
  | .function name _ => report (some name)
  | .proxy link => .proxy
      ⟨heap.isCallable id, heap.isExotic id, link, heap.linkDisplay link⟩

/-- Whether two objects have the same shape; unknown if one is in dictionary mode. -/
def sharesShape? (heap : Heap) (left right : ObjectId) : Option Bool := do
  let leftShape ← heap.shape? left
  let rightShape ← heap.shape? right
  return leftShape = rightShape

/-- A shape with its number and that of its parent. -/
def transitionAnswer (heap : Heap) (id : ShapeId) : Answer :=
  let shape := heap.shapes.shape id
  let parent := shape.parent.map fun parent => (heap.shapes.shape parent).number
  .transition shape.number parent shape.layout

end Heap

end ObjectModel
