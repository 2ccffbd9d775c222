import ObjectModel.Cell
import ObjectModel.Scenario.Report

/-!
Contract: what single actions do.

An action answers, may have a value to bind, and may have made objects. A made object
is held by its action until the value is bound; after that only its label, or another
object, keeps it.
-/

namespace ObjectModel.Scenario

/-- The running function's receiver and arguments. Outside functions there are
none. -/
structure Frame where
  receiver : Value := .undefined
  arguments : List Value := []

/-- What an action leaves: its answer, a value to bind, a second name to bind after
it, and the objects that it made. -/
structure Outcome where
  answer : Answer := .nothing
  bound : Option Value := none
  alsoBound : Option (String × Value) := none
  made : List ObjectId := []

/-- How a value is joined to a text. -/
def joinedText : Value → String
  | .string text => text
  | .number number => toString number.toInt64
  | _ => ""

mutual

def Operand.evaluate (frame : Frame) : Operand → Play Value
  | .literal value => return value
  | .variable name => Play.valueOf name
  | .ownReceiver => return frame.receiver
  | .argument index => return frame.arguments.getD index .undefined
  | .joined parts => return .string (← joinParts frame parts)

def joinParts (frame : Frame) : List Operand → Play String
  | [] => return ""
  | part :: rest => do
      let head := joinedText (← part.evaluate frame)
      return head ++ (← joinParts frame rest)

end

namespace Operand

/-- An operand that must be an object. -/
def object (frame : Frame) (operand : Operand) : Play ObjectId := do
  match ← operand.evaluate frame with
  | .object id => return id
  | _ => Play.typeError "not an object"

/-- An operand that must be an object, or absent, null or undefined. -/
def object? (frame : Frame) (operand : Option Operand) : Play (Option ObjectId) := do
  match operand with
  | none => return none
  | some operand =>
      match ← operand.evaluate frame with
      | .object id => return some id
      | .null | .undefined => return none
      | _ => Play.typeError "not an object"

def all (frame : Frame) (operands : List Operand) : Play (List Value) :=
  operands.mapM fun operand => operand.evaluate frame

end Operand

def KeyOperand.evaluate (frame : Frame) : KeyOperand → Play PropertyKey
  | .number count => return .ofNat count
  | .text name => return .ofString name
  | .value operand => do
      match PropertyKey.ofValue? (← operand.evaluate frame) with
      | some key => return key
      | none => Play.typeError "not a property key"

def optionally {α β : Type} (operand : Option α) (evaluate : α → Play β) :
    Play (Option β) :=
  match operand with
  | none => return none
  | some operand => return some (← evaluate operand)

def DescriptorOperand.evaluate (frame : Frame) : DescriptorOperand → Play Descriptor
  | .fields value writable get set enumerable configurable => do
      let value ← optionally value (·.evaluate frame)
      let get ← optionally get (·.evaluate frame)
      let set ← optionally set (·.evaluate frame)
      return { value, writable, get, set, enumerable, configurable }
  | .read source => do Play.request (.readDescription (← source.evaluate frame))

/-- Goes on with a descriptor. What it refers to is held until the rest is done. -/
def DescriptorOperand.use {α : Type} (frame : Frame) (operand : DescriptorOperand)
    (rest : Descriptor → Play α) : Play α := do
  let descriptor ← operand.evaluate frame
  Play.holding descriptor.references (rest descriptor)

/-- Goes on with a descriptor that may be absent. -/
def DescriptorOperand.use? {α : Type} (frame : Frame)
    (operand : Option DescriptorOperand) (rest : Option Descriptor → Play α) : Play α :=
  match operand with
  | none => rest none
  | some operand => operand.use frame fun descriptor => rest (some descriptor)

def SlotOperand.evaluate (frame : Frame) : SlotOperand → Play Slot
  | .data value => return .data (← value.evaluate frame)
  | .accessor getter setter =>
      return .accessor (← Operand.object? frame getter) (← Operand.object? frame setter)

def TransitionOperand.evaluate (frame : Frame) : TransitionOperand → Play Transition
  | .add key attributes kind => return .add (← key.evaluate frame) attributes kind
  | .remove key => return .remove (← key.evaluate frame)
  | .reconfigure key attributes kind =>
      return .reconfigure (← key.evaluate frame) attributes kind
  | .preventExtensions => return .preventExtensions
  | .protect level => return .protect level

namespace Outcome

def ofFlag (value : Bool) : Outcome :=
  { answer := .flag value, bound := some (.boolean value) }

def ofValue (value : Value) : Outcome :=
  { answer := .value value, bound := some value }

/-- A made object, answered only if it is bound. -/
def ofMade (id : ObjectId) : Outcome :=
  { bound := some (.object id), made := [id] }

def ofAnswer (answer : Answer) : Outcome :=
  { answer := answer }

end Outcome

open Play

/-- A new plain object with the values under `0`, `1`, ... and their number under
`length`. -/
def makeArrayLike (store : StoreId) (values : List Value) : Play ObjectId := do
  let id ← request (.newObject store none false)
  values.zipIdx.forM fun (value, index) => do
    let _ ← report true (← call (.createData id (.ofNat index) value))
  let length := Value.number (.ofInt values.length)
  let _ ← report true (← call (.createData id (.ofString "length") length))
  return id

def runMaking (frame : Frame) : Making → Play Outcome
  | .store name config => do
      let store ← request (.newStore config)
      modifySession fun session =>
        { session with stores := bindName name store session.stores }
      return {}
  | .symbol description => do
      let symbol : Symbol := ⟨(← session).symbols, description⟩
      modifySession fun session => { session with symbols := session.symbols + 1 }
      return { bound := some (.symbol symbol) }
  | .object prototype isLiteral store => do
      let prototype ← Operand.object? frame prototype
      return .ofMade (← request (.newObject (← storeOf store) prototype isLiteral))
  | .arrayLike items store => do
      let items ← Operand.all frame items
      return .ofMade (← makeArrayLike (← storeOf store) items)
  | .proxy target handler store => do
      let target ← target.object frame
      let handler ← handler.object frame
      return .ofMade (← request (.newProxy (← storeOf store) target handler))
  | .revocable target handler revoke store => do
      let target ← target.object frame
      let handler ← handler.object frame
      let store ← storeOf store
      let proxy ← request (.newProxy store target handler)
      let revoker ← request (.newRevoker store proxy)
      return { bound := some (.object proxy)
               alsoBound := some (revoke, .object revoker)
               made := [proxy, revoker] }
  | .revoke proxy => do
      request (.revoke (← proxy.object frame))
      return {}

/-- A method step. `isBound` tells whether its value is going to be bound; objects
that stand for descriptions and key lists are made only then. -/
def runMethod (frame : Frame) (isBound : Bool) : Method → Play Outcome
  | .getPrototypeOf object => do
      let prototype ← call (.getPrototypeOf (← object.object frame))
      return { answer := .objectOrNull prototype
               bound := some (.ofObjectOrNull prototype) }
  | .setPrototypeOf object prototype => do
      let id ← object.object frame
      return .ofFlag (← call (.setPrototypeOf id (← Operand.object? frame prototype)))
  | .isExtensible object => do
      return .ofFlag (← call (.isExtensible (← object.object frame)))
  | .preventExtensions object strict => do
      let verdict ← call (.preventExtensions (← object.object frame))
      return .ofFlag (← report strict verdict)
  | .getOwnProperty object key => do
      let id ← object.object frame
      let key ← key.evaluate frame
      let descriptor ← call (.getOwnProperty id key)
      match descriptor, isBound with
      | some found, true => do
          let main ← storeOf "main"
          let made ← holding found.references (request (.describe main found))
          return { answer := .descriptor descriptor
                   bound := some (.object made)
                   made := [made] }
      | _, _ => return { answer := .descriptor descriptor, bound := some .undefined }
  | .define object key change strict => do
      let id ← object.object frame
      let key ← key.evaluate frame
      change.use frame fun change => do
        return .ofFlag (← report strict (← call (.defineOwnProperty id key change)))
  | .defineOrThrow object key change => do
      let id ← object.object frame
      let key ← key.evaluate frame
      change.use frame fun change => do
        let _ ← report true (← call (.defineOwnProperty id key change))
        return {}
  | .has object key => do
      let id ← object.object frame
      return .ofFlag (← call (.has id (← key.evaluate frame)))
  | .hasOwn object key => do
      let id ← object.object frame
      return .ofFlag (← call (.getOwnProperty id (← key.evaluate frame))).isSome
  | .find object key receiver => do
      let id ← object.object frame
      let key ← key.evaluate frame
      return .ofAnswer (.found (← call (.get id key (← receiver.evaluate frame))))
  | .get object key receiver => do
      let id ← object.object frame
      let key ← key.evaluate frame
      let found ← call (.get id key (← receiver.evaluate frame))
      return .ofValue (found.getD .undefined)
  | .getValue object key => do
      let id ← object.object frame
      let found ← call (.getValue id (← key.evaluate frame))
      return .ofValue (found.getD .undefined)
  | .set object key value receiver strict => do
      let id ← object.object frame
      let key ← key.evaluate frame
      let value ← value.evaluate frame
      let receiver ← receiver.evaluate frame
      return .ofFlag (← report strict (← call (.set id key value receiver)))
  | .put object key value strict => do
      let id ← object.object frame
      let key ← key.evaluate frame
      let value ← value.evaluate frame
      return .ofFlag (← report strict (← call (.put id key value)))
  | .delete object key strict => do
      let id ← object.object frame
      return .ofFlag (← report strict (← call (.delete id (← key.evaluate frame))))
  | .ownKeys object strings symbols => do
      let keys ← call (.ownKeys (← object.object frame) strings symbols)
      if isBound then
        let list ← makeArrayLike (← storeOf "main") (keys.map PropertyKey.toValue)
        return { answer := .keys keys, bound := some (.object list), made := [list] }
      else return .ofAnswer (.keys keys)
  | .create object key value => do
      let id ← object.object frame
      let key ← key.evaluate frame
      let verdict ← call (.createData id key (← value.evaluate frame))
      return .ofFlag (← report false verdict)
  | .createOrThrow object key value => do
      let id ← object.object frame
      let key ← key.evaluate frame
      let _ ← report true (← call (.createData id key (← value.evaluate frame)))
      return {}
  | .setIntegrity object level strict => do
      let verdict ← request (.setIntegrity (← object.object frame) level)
      return .ofFlag (← report strict verdict)
  | .testIntegrity object level => do
      return .ofFlag (← request (.testIntegrity (← object.object frame) level))
  | .call object receiver arguments => do
      let id ← object.object frame
      let receiver ← receiver.evaluate frame
      return .ofValue (← call (.call id receiver (← Operand.all frame arguments)))
  | .readMember object name => do
      let id ← object.object frame
      return .ofValue (← member (← request (.readMember id name)))
  | .hasMember object name => do
      return .ofFlag (← request (.hasMember (← object.object frame) name))
  | .invokeMember object name arguments => do
      let id ← object.object frame
      let arguments ← Operand.all frame arguments
      return .ofValue (← member (← request (.invokeMember id name arguments)))

def runPart (frame : Frame) : Part → Play Outcome
  | .add left right => do
      let addend (operand : Operand) : Play Number := do
        return ((← operand.evaluate frame).number?).getD (.ofInt 0)
      return .ofValue (.number ((← addend left).add (← addend right)))
  | .describe descriptor store => do
      descriptor.use frame fun descriptor => do
        return .ofMade (← request (.describe (← storeOf store) descriptor))
  | .readDescription source => do
      let descriptor ← request (.readDescription (← source.evaluate frame))
      return .ofAnswer (.descriptor (some descriptor))
  | .inspectDescriptor descriptor => do
      let descriptor ← descriptor.evaluate frame
      return .ofAnswer (.descriptorInfo ⟨descriptor, descriptor.complete⟩)
  | .isCompatible change current key extensible => do
      change.use frame fun change => do
        let current ← optionally current (·.evaluate frame)
        let key ← key.evaluate frame
        return .ofFlag (change.isCompatible key extensible current)
  | .validate change current target key extensible strict => do
      change.use frame fun change =>
        DescriptorOperand.use? frame current fun current => do
          let target ← Operand.object? frame target
          let key ← key.evaluate frame
          let verdict ← request (.validate target key extensible change current)
          return .ofFlag (← report strict verdict)
  | .setWithOwn own key value receiver strict => do
      own.use frame fun own => do
        let key ← key.evaluate frame
        let value ← value.evaluate frame
        let receiver ← receiver.evaluate frame
        let verdict ← request (.setWithOwn own key value receiver)
        return .ofFlag (← report strict verdict)
  | .invokeSetter setter receiver value => do
      let id ← setter.object frame
      let receiver ← receiver.evaluate frame
      let _ ← call (.call id receiver [← value.evaluate frame])
      return .ofFlag true
  | .admitsPrototype object prototype => do
      let id ← object.object frame
      let prototype ← Operand.object? frame prototype
      return .ofFlag ((← heap).admitsPrototype id prototype)
  | .walk start => do
      let start ← Operand.object? frame start
      return .ofAnswer (.chain ((← heap).walk start))
  | .same left right => do
      let left ← left.evaluate frame
      return .ofFlag (left.same (← right.evaluate frame))
  | .looselySame left right => do
      let left ← left.evaluate frame
      return .ofFlag (left.looselySame (← right.evaluate frame))
  | .toBoolean value => return .ofFlag (← value.evaluate frame).toBoolean
  | .inspectValue value => do
      let value ← value.evaluate frame
      return .ofAnswer (.valueInfo ((← heap).valueInfo value))
  | .inspectKey key => return .ofAnswer (.keyInfo (← key.evaluate frame))
  | .compareKeys left right => do
      let left ← left.evaluate frame
      let right ← right.evaluate frame
      return .ofAnswer (.keyOrder (left.order right) (left = right))
  | .sortKeys keys => do
      let keys ← keys.mapM fun key => key.evaluate frame
      return .ofAnswer (.keys (PropertyKey.sorted keys))
  | .protectAttributes attributes =>
      return .ofAnswer (.protections attributes.sealed (attributes.frozen .data)
        (attributes.frozen .accessor))
  | .exchangeKey old new => do
      let cell : Cell PropertyKey := { value := ← old.evaluate frame }
      let (replaced, initial) := cell.replace (← new.evaluate frame)
      return .ofAnswer (.exchange cell.value (cell.lent.display PropertyKey.quotedText)
        initial replaced.value (replaced.display PropertyKey.quotedText))
  | .inspectObject object => do
      let id ← object.object frame
      return .ofAnswer ((← heap).objectAnswer id)
  | .inspectMode object => do
      let id ← object.object frame
      let heap ← heap
      return .ofAnswer (.mode (heap.isDictionary id) (heap.propertyCount id))

def runShapeStep (frame : Frame) : ShapeStep → Play Outcome
  | .transition source target step store => do
      let store ← storeOf store
      let shape ← shapeOf source store
      let step ← step.evaluate frame
      let reached ← request (.transition store shape step)
      nameShape target reached
      return .ofAnswer ((← heap).transitionAnswer reached)
  | .ofObject object target => do
      let id ← object.object frame
      match (← heap).shape? id with
      | none => return .ofAnswer (.shape none)
      | some shape => do
          request (.holdShape shape)
          nameShape target shape
          return .ofAnswer (.shape (some ((← heap).layout shape)))
  | .same left right => do
      let main ← storeOf "main"
      return .ofAnswer (.flag ((← shapeOf left main) = (← shapeOf right main)))
  | .objectsShare left right => do
      let left ← left.object frame
      let right ← right.object frame
      return .ofAnswer (.optionalFlag ((← heap).sharesShape? left right))
  | .drop shape => do
      dropShape shape
      return {}
  | .lookup shape key => do
      let shape ← shapeOf shape (← storeOf "main")
      let key ← key.evaluate frame
      return .ofAnswer (.property (((← heap).layout shape).find? key))
  | .display shape => do
      let shape ← shapeOf shape (← storeOf "main")
      return .ofAnswer (.text ((← heap).shapes.shape shape).display)
  | .created store => do
      let store ← storeOf store
      return .ofAnswer (.count ((← heap).store store).created)

def runDictionaryStep (frame : Frame) (name : String) : DictionaryStep → Play Outcome
  | .new => do
      setDictionary name .empty
      return {}
  | .ofShape shape slots => do
      let shape ← shapeOf shape (← storeOf "main")
      let slots ← slots.mapM fun slot => slot.evaluate frame
      setDictionary name (.ofLayout ((← heap).layout shape) slots)
      return {}
  | .insert key attributes slot => do
      let key ← key.evaluate frame
      let slot ← slot.evaluate frame
      setDictionary name ((← dictionaryOf name).insert key ⟨attributes, slot⟩)
      return {}
  | .get key => do
      let key ← key.evaluate frame
      return .ofAnswer (.entry ((← dictionaryOf name).get? key))
  | .erase key => do
      let key ← key.evaluate frame
      let dictionary ← dictionaryOf name
      setDictionary name (dictionary.erase key)
      return .ofAnswer (.entry (dictionary.get? key))
  | .update key attributes slot => do
      let key ← key.evaluate frame
      let dictionary ← dictionaryOf name
      if (dictionary.get? key).isSome then
        let slot ← slot.evaluate frame
        setDictionary name (dictionary.update key ⟨attributes, slot⟩)
        return .ofAnswer (.flag true)
      else return .ofAnswer (.flag false)
  | .keys => return .ofAnswer (.keys (← dictionaryOf name).keys)
  | .entries => do
      let dictionary ← dictionaryOf name
      return .ofAnswer (.entries (dictionary.keys.filterMap fun key =>
        (dictionary.get? key).map fun entry => (key, entry)))
  | .protect level => do
      setDictionary name ((← dictionaryOf name).protect level)
      return {}
  | .preventExtensions => do
      setDictionary name (← dictionaryOf name).preventExtensions
      return {}
  | .isExtensible => return .ofAnswer (.flag (← dictionaryOf name).extensible)

def runAction (frame : Frame) (isBound : Bool) : Action → Play Outcome
  | .assign value => return { bound := some (← value.evaluate frame) }
  | .note value => do
      log (.note (← value.evaluate frame))
      return {}
  | .throw (.value operand) => do fail (.thrown (← operand.evaluate frame))
  | .throw (.typeError message) => typeError message
  | .throw (.rangeError message) => fail (.range (.raised message))
  | .making step => runMaking frame step
  | .method step => runMethod frame isBound step
  | .part step => runPart frame step
  | .shape step => runShapeStep frame step
  | .dictionary name step => runDictionaryStep frame name step

end ObjectModel.Scenario
