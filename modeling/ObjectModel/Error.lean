import ObjectModel.Key
import ObjectModel.Proxy.Trap

/-!
Contract: why operations fail, and the words for it.

An `Error` is a cause: a type error with its reason, a range error, or a value
thrown by user code. A refusal (`Verdict.refused`) is the reason of a type error
that a caller may report as `false` instead.

Texts name objects by their kind only, so `message` takes the display of an
object as an argument.
-/

namespace ObjectModel

inductive AccessorRole where
  | getter
  | setter
deriving DecidableEq, Repr

def AccessorRole.text : AccessorRole → String
  | .getter => "Getter"
  | .setter => "Setter"

/-- Reasons of a type error. -/
inductive TypeFault where
  | readOnly (key : PropertyKey)
  | undeletable (key : PropertyKey)
  | notExtensible (key : PropertyKey)
  | primitiveReceiver (key : PropertyKey)
  | cannotRedefine (key : PropertyKey)
  | noSetter (key : PropertyKey)
  | descriptionNotObject
  | accessorNotFunction (role : AccessorRole) (value : Value)
  | mixedDescription
  | notFunction
  | revokedCall
  | revokedProxy (trap : Trap)
  | trapNotFunction (trap : Trap) (value : Value)
  | proxyKeptExtensible
  | proxyRefusedSet (key : PropertyKey)
  | proxyRefusedDelete (key : PropertyKey)
  | cannotPreventExtensions
  | trapViolation (violation : Violation)
  | raised (message : String)
deriving DecidableEq

/-- Reasons of a range error. -/
inductive RangeFault where
  | nestingLimit
  | raised (message : String)
deriving DecidableEq

inductive Error where
  | type (fault : TypeFault)
  | range (fault : RangeFault)
  | thrown (value : Value)
deriving DecidableEq

/-- Answer of an operation that can be refused. Strict callers turn the reason of
a refusal into a type error; others see `false`. -/
inductive Verdict where
  | accepted
  | refused (reason : TypeFault)
deriving DecidableEq

def Verdict.isAccepted : Verdict → Bool
  | .accepted => true
  | .refused _ => false

/-- Acceptance, or a refusal for this reason. -/
def Verdict.ofBool (reason : TypeFault) (accepted : Bool) : Verdict :=
  if accepted then .accepted else .refused reason

/-- How a verdict is reported to a caller: a strict one gets an error for a
refusal. -/
def Verdict.report (strict : Bool) : Verdict → Except Error Bool
  | .accepted => .ok true
  | .refused reason => if strict then .error (.type reason) else .ok false

/-- The text of a value in messages. -/
def Value.display (objectName : ObjectId → String) : Value → String
  | .undefined => "undefined"
  | .null => "null"
  | .boolean value => if value then "true" else "false"
  | .number value => value.text
  | .string value => Text.quoted value
  | .symbol value => value.text
  | .object id => objectName id

def TypeFault.message (objectName : ObjectId → String) : TypeFault → String
  | .readOnly key => "Cannot assign to read only property '" ++ key.text ++ "' of object"
  | .undeletable key => "Cannot delete property '" ++ key.text ++ "' of object"
  | .notExtensible key => "Cannot add property " ++ key.text ++ ", object is not extensible"
  | .primitiveReceiver key =>
      "Cannot create property '" ++ key.text ++ "' on a non-object receiver"
  | .cannotRedefine key => "Cannot redefine property: " ++ key.text
  | .noSetter key =>
      "Cannot set property " ++ key.text ++ " of object which has only a getter"
  | .descriptionNotObject => "Property description must be an object"
  | .accessorNotFunction role value =>
      role.text ++ " must be a function: " ++ value.display objectName
  | .mixedDescription =>
      "Invalid property descriptor. Cannot both specify accessors and a value or " ++
        "writable attribute"
  | .notFunction => "object is not a function"
  | .revokedCall => "Cannot call a revoked proxy"
  | .revokedProxy trap =>
      "Cannot perform '" ++ trap.name ++ "' on a proxy that has been revoked"
  | .trapNotFunction trap value =>
      "proxy trap '" ++ trap.name ++ "' is not a function: " ++ value.display objectName
  | .proxyKeptExtensible => "proxy preventExtensions handler returned false"
  | .proxyRefusedSet key =>
      "proxy set handler returned false for property '" ++ key.text ++ "'"
  | .proxyRefusedDelete key =>
      "proxy deleteProperty handler returned false for property '" ++ key.text ++ "'"
  | .cannotPreventExtensions => "Cannot prevent extensions"
  | .trapViolation violation => violation.message
  | .raised message => message

def RangeFault.message : RangeFault → String
  | .nestingLimit => "Maximum call stack size exceeded"
  | .raised message => message

/-- The full text of an error. -/
def Error.message (objectName : ObjectId → String) : Error → String
  | .type fault => "TypeError: " ++ fault.message objectName
  | .range fault => "RangeError: " ++ fault.message
  | .thrown value => "Uncaught exception: " ++ value.display objectName

end ObjectModel
