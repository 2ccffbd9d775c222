import ObjectModel.Machine.Description
import ObjectModel.Machine.Lookup

/-!
Contract: the code of users, as programs that ask for operations on the heap.

A `Script` is a tree: each request is followed by one continuation for every answer
or error. Scripts see objects and symbols but not the heap, and share one state of
their own. A `Host` gives the script of every function number, so a heap holds plain
data and statements about user code quantify over hosts.

Owns: the operations that scripts may ask for (`Request`) and what they do
(`Request.perform`).
-/

namespace ObjectModel

/-- How looking up a member by name fails beside errors of the language. -/
inductive MemberFault where
  | unknown (name : String)
  | notInvocable (name : String)
deriving DecidableEq

def MemberFault.message : MemberFault → String
  | .unknown name => "Unknown identifier: " ++ name
  | .notInvocable name => "Unsupported message: '" ++ name ++ "' is not invocable"

/-- What a script may ask for. -/
inductive Request where
  | call (method : Call)
  | newStore (config : Config)
  | newObject (store : StoreId) (prototype : Option ObjectId) (isLiteral : Bool)
  | newFunction (store : StoreId) (prototype : Option ObjectId) (name : String)
      (code : Nat)
  | newProxy (store : StoreId) (target handler : ObjectId)
  /-- A function that revokes a proxy. -/
  | newRevoker (store : StoreId) (proxy : ObjectId)
  | revoke (proxy : ObjectId)
  | describe (store : StoreId) (descriptor : Descriptor)
  | readDescription (value : Value)
  | setWithOwn (own : Descriptor) (key : PropertyKey) (value receiver : Value)
  | setIntegrity (id : ObjectId) (level : Integrity)
  | testIntegrity (id : ObjectId) (level : Integrity)
  | readMember (id : ObjectId) (name : String)
  | hasMember (id : ObjectId) (name : String)
  | invokeMember (id : ObjectId) (name : String) (arguments : List Value)
  /-- A definition validated against any description, and made if there is a
  target. -/
  | validate (target : Option ObjectId) (key : PropertyKey) (extensible : Bool)
      (change : Descriptor) (current : Option Descriptor)
  /-- One step of a shape, taken by a store; the result is held. -/
  | transition (store : StoreId) (shape : ShapeId) (step : Transition)
  | hold (id : ObjectId)
  | release (id : ObjectId)
  | holdShape (shape : ShapeId)
  | releaseShape (shape : ShapeId)
  /-- The heap as it is, for reports. -/
  | inspect

abbrev Request.Answer : Request → Type
  | .call method => method.Answer
  | .newStore _ => StoreId
  | .newObject _ _ _ => ObjectId
  | .newFunction _ _ _ _ => ObjectId
  | .newProxy _ _ _ => ObjectId
  | .newRevoker _ _ => ObjectId
  | .revoke _ => Unit
  | .describe _ _ => ObjectId
  | .readDescription _ => Descriptor
  | .setWithOwn _ _ _ _ => Verdict
  | .setIntegrity _ _ => Verdict
  | .testIntegrity _ _ => Bool
  | .readMember _ _ => Except MemberFault Value
  | .hasMember _ _ => Bool
  | .invokeMember _ _ _ => Except MemberFault Value
  | .validate _ _ _ _ _ => Verdict
  | .transition _ _ _ => ShapeId
  | .hold _ => Unit
  | .release _ => Unit
  | .holdShape _ => Unit
  | .releaseShape _ => Unit
  | .inspect => Heap

/-- A program of user code with state `σ` and result `α`. -/
inductive Script (σ α : Type) where
  | done (result : α)
  | ask (request : Request) (next : Except Error request.Answer → Script σ α)
  | look (next : σ → Script σ α)
  | update (change : σ → σ) (next : Script σ α)

namespace Script

variable {σ α β : Type}

def bind (script : Script σ α) (next : α → Script σ β) : Script σ β :=
  match script with
  | .done result => next result
  | .ask request continuation => .ask request fun answer => (continuation answer).bind next
  | .look continuation => .look fun state => (continuation state).bind next
  | .update change rest => .update change (rest.bind next)

instance : Monad (Script σ) where
  pure := .done
  bind := bind

/-- Runs a script, given what its requests do. -/
def exec (perform : (request : Request) → Exec σ request.Answer) :
    Script σ α → Exec σ α
  | .done result => return result
  | .ask request next => do
      let answer ← Exec.attempt (perform request)
      (next answer).exec perform
  | .look next => do (next (← get).client).exec perform
  | .update change next => do
      modify fun world => { world with client := change world.client }
      next.exec perform

end Script

/-- The code of every function number: what a call with this receiver and these
arguments does. -/
abbrev Host (σ : Type) :=
  (code : Nat) → (this : Value) → (arguments : List Value) →
    Script σ (Except Error Value)

namespace Machine

variable {σ : Type} (dispatch : Dispatch σ)

/-- The member of an object or its prototypes with this name. -/
def readMember (id : ObjectId) (name : String) : Exec σ (Except MemberFault Value) := do
  match ← dispatch (.getValue id (.ofString name)) with
  | some value => return .ok value
  | none => return .error (.unknown name)

def hasMember (id : ObjectId) (name : String) : Exec σ Bool :=
  dispatch (.has id (.ofString name))

/-- Calls the member with this name, with the object as receiver. The function is in
hand until it returns. -/
def invokeMember (id : ObjectId) (name : String) (arguments : List Value) :
    Exec σ (Except MemberFault Value) := do
  match ← readMember dispatch id name with
  | .error fault => return .error fault
  | .ok (.object function) =>
      if (← Exec.heap).isCallable function then
        return .ok (← Exec.holding [function]
          (dispatch (.call function (.object id) arguments)))
      else return .error (.notInvocable name)
  | .ok _ => return .error (.notInvocable name)

/-- The change that protects one property of an exotic object to a level; none if the
property is gone. -/
def protectingChange (id : ObjectId) (level : Integrity) (key : PropertyKey) :
    Exec σ (Option Descriptor) := do
  match level with
  | .sealed => return some { configurable := some false }
  | .frozen =>
      match ← dispatch (.getOwnProperty id key) with
      | none => return none
      | some current =>
          if current.isAccessor then return some { configurable := some false }
          else return some { configurable := some false, writable := some false }

/-- Protects the listed properties to a level. A refusal is an error. -/
def protectKeys (id : ObjectId) (level : Integrity) : List PropertyKey → Exec σ Unit
  | [] => return ()
  | key :: rest => do
      match ← protectingChange dispatch id level key with
      | none => protectKeys id level rest
      | some change =>
          match ← dispatch (.defineOwnProperty id key change) with
          | .accepted => protectKeys id level rest
          | .refused reason => Exec.typeError reason

/-- SetIntegrityLevel. An exotic object is protected through its internal methods. -/
def setIntegrity (id : ObjectId) (level : Integrity) : Exec σ Verdict := do
  if !(← Exec.heap).isExotic id then
    Exec.changeHeap fun heap => heap.setIntegrity id level
    return .accepted
  else
    match ← dispatch (.preventExtensions id) with
    | .refused _ => return .refused .cannotPreventExtensions
    | .accepted =>
        protectKeys dispatch id level (← dispatch (.allKeys id))
        return .accepted

/-- Whether a description is protected to a level. -/
def hasIntegrity (level : Integrity) (descriptor : Descriptor) : Bool :=
  !descriptor.isConfigurable &&
    !(level = .frozen && descriptor.isData && descriptor.isWritable)

/-- Whether the listed properties that exist are protected to a level. The first one
that is not ends the search. -/
def keysHaveIntegrity (id : ObjectId) (level : Integrity) :
    List PropertyKey → Exec σ Bool
  | [] => return true
  | key :: rest => do
      if (← dispatch (.getOwnProperty id key)).all (hasIntegrity level) then
        keysHaveIntegrity id level rest
      else return false

/-- TestIntegrityLevel. -/
def testIntegrity (id : ObjectId) (level : Integrity) : Exec σ Bool := do
  let heap ← Exec.heap
  if !heap.isExotic id then return heap.testIntegrity id level
  else if ← dispatch (.isExtensible id) then return false
  else keysHaveIntegrity dispatch id level (← dispatch (.allKeys id))

end Machine

/-- What a request does. -/
def Request.perform {σ : Type} (dispatch : Dispatch σ) :
    (request : Request) → Exec σ request.Answer
  | .call method => dispatch method
  | .newStore config => Exec.onHeap (·.addStore config)
  | .newObject store prototype isLiteral =>
      Exec.onHeap (·.allocate store .ordinary prototype isLiteral)
  | .newFunction store prototype name code =>
      Exec.onHeap (·.allocate store (.function name (.code code)) prototype false)
  | .newProxy store target handler =>
      Exec.onHeap (·.allocate store (.proxy ⟨target, handler, false⟩) none false)
  | .newRevoker store proxy =>
      Exec.onHeap (·.allocate store (.function "revoke" (.revoke proxy)) none false)
  | .revoke proxy => Exec.changeHeap (·.revoke proxy)
  | .describe store descriptor => Exec.onHeap (·.describe store descriptor)
  | .readDescription value => Machine.readDescription dispatch value
  | .setWithOwn own key value receiver =>
      Machine.setWithOwn dispatch own key value receiver
  | .setIntegrity id level => Machine.setIntegrity dispatch id level
  | .testIntegrity id level => Machine.testIntegrity dispatch id level
  | .readMember id name => Machine.readMember dispatch id name
  | .hasMember id name => Machine.hasMember dispatch id name
  | .invokeMember id name arguments => Machine.invokeMember dispatch id name arguments
  | .validate target key extensible change current =>
      Exec.onHeapOrRaise (·.validateAndApply target key extensible change current)
  | .transition store shape step =>
      Exec.onHeap fun heap =>
        let (heap, target) := heap.transition store shape step
        (heap.holdShape target, target)
  | .hold id => Exec.changeHeap (·.hold id)
  | .release id => Exec.changeHeap (·.release id)
  | .holdShape shape => Exec.changeHeap (·.holdShape shape)
  | .releaseShape shape => Exec.changeHeap (·.releaseShape shape)
  | .inspect => Exec.heap

end ObjectModel
