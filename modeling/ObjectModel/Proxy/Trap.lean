/-!
Contract: the names of proxy traps, and the promises of a target that a trap may
not break.

A trap replaces one internal method of its proxy. Its result is checked against
what the target has fixed; each way to contradict the target is one `Violation`.
-/

namespace ObjectModel

/-- The internal methods that a handler may replace. -/
inductive Trap where
  | getPrototypeOf
  | setPrototypeOf
  | isExtensible
  | preventExtensions
  | getOwnProperty
  | defineProperty
  | has
  | get
  | set
  | delete
  | ownKeys
deriving DecidableEq, Repr

/-- The property of the handler that holds the trap. -/
def Trap.name : Trap → String
  | .getPrototypeOf => "getPrototypeOf"
  | .setPrototypeOf => "setPrototypeOf"
  | .isExtensible => "isExtensible"
  | .preventExtensions => "preventExtensions"
  | .getOwnProperty => "getOwnPropertyDescriptor"
  | .defineProperty => "defineProperty"
  | .has => "has"
  | .get => "get"
  | .set => "set"
  | .delete => "deleteProperty"
  | .ownKeys => "ownKeys"

def Trap.all : List Trap :=
  [.getPrototypeOf, .setPrototypeOf, .isExtensible, .preventExtensions, .getOwnProperty,
    .defineProperty, .has, .get, .set, .delete, .ownKeys]

/-- A result of a trap that contradicts the target, or is no result at all. -/
inductive Violation where
  | prototypeNotObject
  | prototypeOfFixedTarget
  | prototypeSetOnFixedTarget
  | extensibilityMismatch
  | stillExtensible
  | descriptionNotObject
  | fixedPropertyAbsent
  | propertyOfFixedTargetAbsent
  | incompatibleDescription
  | writableReportedFixed
  | looseReportedFixed
  | addedToFixedTarget
  | absentDefinedFixed
  | incompatibleDefinition
  | looseDefinedFixed
  | writableMadeFixed
  | hidFixedProperty
  | hidPropertyOfFixedTarget
  | otherValueOfFixedProperty
  | valueWithoutGetter
  | changedFixedProperty
  | setWithoutSetter
  | deletedFixedProperty
  | deletedFromFixedTarget
  | keysNotObject
  | keysLengthNotNumber
  | keyNotStringOrSymbol
  | duplicateKeys
  | missingFixedKey
  | missingKeyOfFixedTarget
  | unknownKeyOfFixedTarget
deriving DecidableEq, Repr

/-- The trap that a violation is about. -/
def Violation.trap : Violation → Trap
  | .prototypeNotObject | .prototypeOfFixedTarget => .getPrototypeOf
  | .prototypeSetOnFixedTarget => .setPrototypeOf
  | .extensibilityMismatch => .isExtensible
  | .stillExtensible => .preventExtensions
  | .descriptionNotObject | .fixedPropertyAbsent | .propertyOfFixedTargetAbsent
  | .incompatibleDescription | .writableReportedFixed | .looseReportedFixed =>
      .getOwnProperty
  | .addedToFixedTarget | .absentDefinedFixed | .incompatibleDefinition
  | .looseDefinedFixed | .writableMadeFixed => .defineProperty
  | .hidFixedProperty | .hidPropertyOfFixedTarget => .has
  | .otherValueOfFixedProperty | .valueWithoutGetter => .get
  | .changedFixedProperty | .setWithoutSetter => .set
  | .deletedFixedProperty | .deletedFromFixedTarget => .delete
  | .keysNotObject | .keysLengthNotNumber | .keyNotStringOrSymbol | .duplicateKeys
  | .missingFixedKey | .missingKeyOfFixedTarget | .unknownKeyOfFixedTarget => .ownKeys

def Violation.text : Violation → String
  | .prototypeNotObject => "returned neither object nor null"
  | .prototypeOfFixedTarget => "did not return the prototype of a non-extensible target"
  | .prototypeSetOnFixedTarget =>
      "returned true for a non-extensible target with a different prototype"
  | .extensibilityMismatch => "result does not match the target"
  | .stillExtensible => "returned true but the target is extensible"
  | .descriptionNotObject => "must return an object or undefined"
  | .fixedPropertyAbsent => "reported a non-configurable property as absent"
  | .propertyOfFixedTargetAbsent =>
      "reported an existing property of a non-extensible target as absent"
  | .incompatibleDescription =>
      "returned a descriptor incompatible with the target property"
  | .writableReportedFixed => "reported a writable property as non-writable"
  | .looseReportedFixed =>
      "reported a property as non-configurable that is configurable or absent on the target"
  | .addedToFixedTarget => "added a property to a non-extensible target"
  | .absentDefinedFixed =>
      "defined a non-configurable property that is absent on the target"
  | .incompatibleDefinition =>
      "accepted a descriptor incompatible with the target property"
  | .looseDefinedFixed =>
      "defined a non-configurable property that is configurable on the target"
  | .writableMadeFixed => "made a non-configurable writable property non-writable"
  | .hidFixedProperty => "hid a non-configurable property"
  | .hidPropertyOfFixedTarget => "hid a property of a non-extensible target"
  | .otherValueOfFixedProperty =>
      "returned a different value for a non-writable, non-configurable property"
  | .valueWithoutGetter =>
      "returned a value for a non-configurable accessor without a getter"
  | .changedFixedProperty => "changed a non-writable, non-configurable property"
  | .setWithoutSetter => "succeeded on a non-configurable accessor without a setter"
  | .deletedFixedProperty => "deleted a non-configurable property"
  | .deletedFromFixedTarget => "deleted a property of a non-extensible target"
  | .keysNotObject => "must return an object"
  | .keysLengthNotNumber => "result has a non-numeric length"
  | .keyNotStringOrSymbol => "result contains a value that is not a string or symbol"
  | .duplicateKeys => "result contains duplicate entries"
  | .missingFixedKey => "result is missing a non-configurable key"
  | .missingKeyOfFixedTarget => "result is missing a key of a non-extensible target"
  | .unknownKeyOfFixedTarget => "result lists a key a non-extensible target does not have"

def Violation.message (violation : Violation) : String :=
  "proxy '" ++ violation.trap.name ++ "' trap " ++ violation.text

end ObjectModel
