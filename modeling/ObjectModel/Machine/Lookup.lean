import ObjectModel.Machine.Call

/-!
Contract: reading and writing through the prototype chain.

A lookup walks the stored links of ordinary objects. The first own property, or the
first exotic object, decides. No part of the heap is remembered across user code: a
getter, setter or trap may change everything. But what a method has in hand when it
calls user code stays in use until the method is done with it.
-/

namespace ObjectModel.Machine

variable {σ : Type} (dispatch : Dispatch σ)

/-- The value of a data property, or the answer of the getter, which is called with
the given objects in hand. -/
def readSlot (inHand : List ObjectId) (receiver : Value) : Slot → Exec σ Value
  | .data value => return value
  | .accessor (some getter) _ => Exec.holding inHand (dispatch (.call getter receiver []))
  | .accessor none _ => return .undefined

/-- OrdinaryGet; none if the key is nowhere on the chain. -/
def ordinaryGet (id : ObjectId) (key : PropertyKey) (receiver : Value) :
    Exec σ (Option Value) := do
  let heap ← Exec.heap
  match heap.findProperty id key with
  | .found holder _ slot =>
      return some (← readSlot dispatch (heap.inHand holder slot) receiver slot)
  | .exotic next => Exec.holding [next] (dispatch (.get next key receiver))
  | .missing => return none

/-- OrdinaryHasProperty. -/
def ordinaryHas (id : ObjectId) (key : PropertyKey) : Exec σ Bool := do
  match (← Exec.heap).findProperty id key with
  | .found _ _ _ => return true
  | .exotic next => Exec.holding [next] (dispatch (.has next key))
  | .missing => return false

/-- The rest of OrdinarySet once the property `own` was found on the chain: an
accessor is called, and a writable data property is written to the receiver, where
it is created if need be. -/
def setWithOwn (own : Descriptor) (key : PropertyKey) (value receiver : Value) :
    Exec σ Verdict := do
  if own.isAccessor then
    match own.setter? with
    | some setter =>
        let _ ← dispatch (.call setter receiver [value])
        return .accepted
    | none => return .refused (.noSetter key)
  else if !own.isWritable then
    return .refused (.readOnly key)
  else
    match receiver with
    | .object target =>
        match ← dispatch (.getOwnProperty target key) with
        | some existing =>
            if existing.isAccessor then return .refused (.cannotRedefine key)
            else if !existing.isWritable then return .refused (.readOnly key)
            else
              let heap ← Exec.heap
              if !heap.isExotic target && heap.hasData target key then
                Exec.changeHeap fun heap => heap.writeData target key value
                return .accepted
              else
                Exec.holding existing.references
                  (dispatch (.defineOwnProperty target key { value := some value }))
        | none => dispatch (.createData target key value)
    | _ => return .refused (.primitiveReceiver key)

/-- OrdinarySet. A key found nowhere is set as if it were a writable data
property. -/
def ordinarySet (id : ObjectId) (key : PropertyKey) (value receiver : Value) :
    Exec σ Verdict := do
  let heap ← Exec.heap
  match heap.findProperty id key with
  | .found holder attributes slot =>
      Exec.holding (heap.inHand holder slot)
        (setWithOwn dispatch (.ofStored attributes slot) key value receiver)
  | .exotic next => Exec.holding [next] (dispatch (.set next key value receiver))
  | .missing => setWithOwn dispatch (.data .undefined .assigned) key value receiver

end ObjectModel.Machine
