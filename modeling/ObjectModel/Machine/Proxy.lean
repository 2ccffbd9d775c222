import ObjectModel.Machine.Description

/-!
Contract: the internal methods of proxies.

Each method looks up its trap on the handler. Without the trap the method of the
target answers; otherwise the trap is asked, and its result is checked against what
the target has fixed. The checks look at the target after the trap ran.

The target and the handler are read once, before the trap is looked up, so revoking
the proxy in between does not stop a method that has begun. They stay in use until the
method is done, and so does the function of the trap. The result of a trap, and a
description of the target's property, stay in use while later checks may run user code.
-/

namespace ObjectModel.Machine

variable {σ : Type} (dispatch : Dispatch σ)

/-- The link of a proxy that is not revoked, and the function of a trap, if the
handler has one. -/
def findTrap (proxy : ObjectId) (trap : Trap) : Exec σ (ProxyLink × Option ObjectId) := do
  match (← Exec.heap).proxy? proxy with
  | none => Exec.typeError (.revokedProxy trap)
  | some link =>
      if link.revoked then Exec.typeError (.revokedProxy trap)
      else
        let found ← dispatch (.getValue link.handler (.ofString trap.name))
        match found.getD .undefined with
        | .undefined | .null => return (link, none)
        | value =>
            if (← Exec.heap).isFunction value then return (link, value.object?)
            else Exec.typeError (.trapNotFunction trap value)

/-- One method of a proxy: `forward` to the target, or `consult` the trap, which is
asked with the target as its first argument.

What the trap was called with and its function are in hand until the checks are made,
as user code may take the trap off the handler. Without a trap there is nothing to hold:
the caller has the proxy in hand, and a proxy keeps its target and its handler in use,
revoked or not. -/
def throughTrap {α : Type} (proxy : ObjectId) (trap : Trap)
    (forward : (target : ObjectId) → Exec σ α)
    (consult : (target : ObjectId) → (ask : List Value → Exec σ Value) → Exec σ α) :
    Exec σ α := do
  match ← findTrap dispatch proxy trap with
  | (link, none) => forward link.target
  | (link, some function) =>
      Exec.holding (link.inHand function) <|
        consult link.target fun arguments =>
          dispatch (.call function (.object link.handler) (.object link.target :: arguments))

def proxyGetPrototypeOf (proxy : ObjectId) : Exec σ (Option ObjectId) :=
  throughTrap dispatch proxy .getPrototypeOf
    (fun target => dispatch (.getPrototypeOf target))
    fun target ask => do
      let result ← ask []
      let prototype ← match result with
        | .object id => pure (some id)
        | .null => pure none
        | _ => Exec.violation .prototypeNotObject
      Exec.holding prototype.toList do
        if ← dispatch (.isExtensible target) then return prototype
        else if (← dispatch (.getPrototypeOf target)) = prototype then return prototype
        else Exec.violation .prototypeOfFixedTarget

def proxySetPrototypeOf (proxy : ObjectId) (prototype : Option ObjectId) : Exec σ Bool :=
  throughTrap dispatch proxy .setPrototypeOf
    (fun target => dispatch (.setPrototypeOf target prototype))
    fun target ask => do
      if !(← ask [.ofObjectOrNull prototype]).toBoolean then return false
      else if ← dispatch (.isExtensible target) then return true
      else if (← dispatch (.getPrototypeOf target)) = prototype then return true
      else Exec.violation .prototypeSetOnFixedTarget

def proxyIsExtensible (proxy : ObjectId) : Exec σ Bool :=
  throughTrap dispatch proxy .isExtensible
    (fun target => dispatch (.isExtensible target))
    fun target ask => do
      let result := (← ask []).toBoolean
      if result = (← dispatch (.isExtensible target)) then return result
      else Exec.violation .extensibilityMismatch

def proxyPreventExtensions (proxy : ObjectId) : Exec σ Verdict :=
  throughTrap dispatch proxy .preventExtensions
    (fun target => do
      let verdict ← dispatch (.preventExtensions target)
      return .ofBool .proxyKeptExtensible verdict.isAccepted)
    fun target ask => do
      if !(← ask []).toBoolean then return .refused .proxyKeptExtensible
      else if ← dispatch (.isExtensible target) then Exec.violation .stillExtensible
      else return .accepted

/-- Whether a proxy's target is extensible, asked with a description in hand. -/
def isExtensibleWith (target : ObjectId) (current : Option Descriptor) : Exec σ Bool :=
  Exec.holding (current.toList.flatMap Descriptor.references)
    (dispatch (.isExtensible target))

/-- A description from the trap must be one that the target's property could have, and
non-configurable only if the target's is. -/
def checkDescription (key : PropertyKey) (extensible : Bool)
    (current : Option Descriptor) (result : Descriptor) : Option Violation :=
  if !result.isCompatible key extensible current then some .incompatibleDescription
  else if result.isConfigurable then none
  else
    match current with
    | none => some .looseReportedFixed
    | some current =>
        if current.isConfigurable then some .looseReportedFixed
        else if result.writable = some false && current.isWritable then
          some .writableReportedFixed
        else none

def proxyGetOwnProperty (proxy : ObjectId) (key : PropertyKey) :
    Exec σ (Option Descriptor) :=
  throughTrap dispatch proxy .getOwnProperty
    (fun target => dispatch (.getOwnProperty target key))
    fun target ask => do
      let result ← ask [key.toValue]
      if !result.isObject && !result.isUndefined then
        Exec.violation .descriptionNotObject
      else
        Exec.holding result.references do
          let current ← dispatch (.getOwnProperty target key)
          Exec.holding (current.toList.flatMap Descriptor.references) do
            if result.isUndefined then
              match current with
              | none => return none
              | some current =>
                  if !current.isConfigurable then Exec.violation .fixedPropertyAbsent
                  else if ← dispatch (.isExtensible target) then return none
                  else Exec.violation .propertyOfFixedTargetAbsent
            else
              let extensible ← dispatch (.isExtensible target)
              let description := (← readDescription dispatch result).complete
              match checkDescription key extensible current description with
              | some violation => Exec.violation violation
              | none => return some description

/-- A definition that the trap accepted must be one that the target could take, and
must fix nothing that the target leaves open. -/
def checkDefinition (key : PropertyKey) (extensible : Bool) (current : Option Descriptor)
    (change : Descriptor) : Option Violation :=
  let fixing := change.configurable = some false
  match current with
  | none =>
      if !extensible then some .addedToFixedTarget
      else if fixing then some .absentDefinedFixed
      else none
  | some current =>
      if !change.isCompatible key extensible (some current) then
        some .incompatibleDefinition
      else if fixing && current.isConfigurable then some .looseDefinedFixed
      else if current.isData && !current.isConfigurable && current.isWritable
          && change.writable = some false then
        some .writableMadeFixed
      else none

/-- The description object that the trap gets is held until the method ends. -/
def proxyDefineOwnProperty (proxy : ObjectId) (key : PropertyKey) (change : Descriptor) :
    Exec σ Verdict :=
  throughTrap dispatch proxy .defineProperty
    (fun target => do
      let verdict ← dispatch (.defineOwnProperty target key change)
      return .ofBool (.cannotRedefine key) verdict.isAccepted)
    fun target ask => do
      let description ← Exec.onHeap fun heap =>
        heap.describe (heap.object target).store change
      let checked : Exec σ Verdict := do
        if !(← ask [key.toValue, .object description]).toBoolean then
          return .refused (.cannotRedefine key)
        else
          let current ← dispatch (.getOwnProperty target key)
          let extensible ← isExtensibleWith dispatch target current
          match checkDefinition key extensible current change with
          | some violation => Exec.violation violation
          | none => return .accepted
      checked.andFinally fun world =>
        { world with heap := world.heap.release description }

def proxyHas (proxy : ObjectId) (key : PropertyKey) : Exec σ Bool :=
  throughTrap dispatch proxy .has
    (fun target => dispatch (.has target key))
    fun target ask => do
      if (← ask [key.toValue]).toBoolean then return true
      else
        match ← dispatch (.getOwnProperty target key) with
        | none => return false
        | some current =>
            if !current.isConfigurable then Exec.violation .hidFixedProperty
            else if ← isExtensibleWith dispatch target (some current) then return false
            else Exec.violation .hidPropertyOfFixedTarget

/-- A value that the `get` trap reports for a fixed property must be its value, and
nothing for an accessor without getter. -/
def checkReported (current : Option Descriptor) (result : Value) : Option Violation :=
  match current with
  | none => none
  | some current =>
      if current.isConfigurable then none
      else if current.isData && !current.isWritable
          && !result.same (current.value.getD .undefined) then
        some .otherValueOfFixedProperty
      else if current.isAccessor && (current.get.getD .undefined).isUndefined
          && !result.isUndefined then
        some .valueWithoutGetter
      else none

/-- A proxy always has a value for a key. -/
def proxyGet (proxy : ObjectId) (key : PropertyKey) (receiver : Value) :
    Exec σ (Option Value) :=
  throughTrap dispatch proxy .get
    (fun target => do
      return some ((← dispatch (.get target key receiver)).getD .undefined))
    fun target ask => do
      let result ← ask [key.toValue, receiver]
      let current ← Exec.holding result.references (dispatch (.getOwnProperty target key))
      match checkReported current result with
      | some violation => Exec.violation violation
      | none => return some result

/-- A write that the `set` trap accepted must not contradict a fixed property. -/
def checkWritten (current : Option Descriptor) (value : Value) : Option Violation :=
  match current with
  | none => none
  | some current =>
      if current.isConfigurable then none
      else if current.isData && !current.isWritable
          && !value.same (current.value.getD .undefined) then
        some .changedFixedProperty
      else if current.isAccessor && current.setter?.isNone then some .setWithoutSetter
      else none

def proxySet (proxy : ObjectId) (key : PropertyKey) (value receiver : Value) :
    Exec σ Verdict :=
  throughTrap dispatch proxy .set
    (fun target => do
      let verdict ← dispatch (.set target key value receiver)
      return .ofBool (.proxyRefusedSet key) verdict.isAccepted)
    fun target ask => do
      if !(← ask [key.toValue, value, receiver]).toBoolean then
        return .refused (.proxyRefusedSet key)
      else
        match checkWritten (← dispatch (.getOwnProperty target key)) value with
        | some violation => Exec.violation violation
        | none => return .accepted

def proxyDelete (proxy : ObjectId) (key : PropertyKey) : Exec σ Verdict :=
  throughTrap dispatch proxy .delete
    (fun target => do
      let verdict ← dispatch (.delete target key)
      return .ofBool (.proxyRefusedDelete key) verdict.isAccepted)
    fun target ask => do
      if !(← ask [key.toValue]).toBoolean then
        return .refused (.proxyRefusedDelete key)
      else
        match ← dispatch (.getOwnProperty target key) with
        | none => return .accepted
        | some current =>
            if !current.isConfigurable then Exec.violation .deletedFixedProperty
            else if ← isExtensibleWith dispatch target (some current) then
              return .accepted
            else Exec.violation .deletedFromFixedTarget

/-- The next `count` elements of a list object as keys, from `index` on, behind the
keys already read in reverse. -/
def readKeys (list : ObjectId) (index : Nat) (read : List PropertyKey) :
    (count : Nat) → Exec σ (List PropertyKey)
  | 0 => return read.reverse
  | count + 1 => do
      let element ← dispatch (.getValue list (.ofNat index))
      match PropertyKey.ofValue? (element.getD .undefined) with
      | some key => readKeys list (index + 1) (key :: read) count
      | none => Exec.violation .keyNotStringOrSymbol

/-- The keys that a list object holds under `0`, `1`, ... up to its length. -/
def readKeyList (value : Value) : Exec σ (List PropertyKey) := do
  match value with
  | .object list =>
      let length ← dispatch (.getValue list (.ofString "length"))
      match length.getD .undefined with
      | .undefined => return []
      | .number length => readKeys dispatch list 0 [] length.toLength
      | _ => Exec.violation .keysLengthNotNumber
  | _ => Exec.violation .keysNotObject

/-- The keys split into those whose property is non-configurable and the others. -/
def splitFixedKeys (target : ObjectId) :
    List PropertyKey → Exec σ (List PropertyKey × List PropertyKey)
  | [] => return ([], [])
  | key :: rest => do
      let current ← dispatch (.getOwnProperty target key)
      let (fixed, loose) ← splitFixedKeys target rest
      if current.any (!·.isConfigurable) then return (key :: fixed, loose)
      else return (fixed, key :: loose)

/-- The list without the given keys, if it has them all. -/
def removeKeys? (keys : List PropertyKey) : List PropertyKey → Option (List PropertyKey)
  | [] => some keys
  | key :: rest =>
      if key ∈ keys then removeKeys? (keys.erase key) rest else none

/-- A key list from the trap must have every fixed key of the target, and exactly the
target's keys if the target cannot get or lose any. -/
def checkKeyList (extensible : Bool) (fixed loose keys : List PropertyKey) :
    Option Violation :=
  match removeKeys? keys fixed with
  | none => some .missingFixedKey
  | some others =>
      if extensible then none
      else
        match removeKeys? others loose with
        | none => some .missingKeyOfFixedTarget
        | some [] => none
        | some (_ :: _) => some .unknownKeyOfFixedTarget

def proxyOwnKeys (proxy : ObjectId) : Exec σ (List PropertyKey) :=
  throughTrap dispatch proxy .ownKeys
    (fun target => dispatch (.allKeys target))
    fun target ask => do
      let result ← ask []
      Exec.holding result.references do
        let keys ← readKeyList dispatch result
        if !decide keys.Nodup then Exec.violation .duplicateKeys
        else
          let extensible ← dispatch (.isExtensible target)
          let targetKeys ← dispatch (.allKeys target)
          let (fixed, loose) ← splitFixedKeys dispatch target targetKeys
          match checkKeyList extensible fixed loose keys with
          | some violation => Exec.violation violation
          | none => return keys

end ObjectModel.Machine
