import ObjectModel.Machine.Run

/-!
Contract: the language of scenarios.

A scenario is a list of steps on one heap. Steps name values, shapes, dictionaries
and stores, and the bodies of functions are steps themselves, so a scenario is user
code and driver at once.

Owns: the syntax. Operands are read when their step runs, in the order of the fields
here.
-/

namespace ObjectModel.Scenario

/-- An expression for a value. -/
inductive Operand where
  | literal (value : Value)
  | variable (name : String)
  /-- The receiver of the running function. -/
  | ownReceiver
  /-- An argument of the running function, undefined beyond the last. -/
  | argument (index : Nat)
  /-- Strings and whole parts of numbers joined. -/
  | joined (parts : List Operand)

inductive KeyOperand where
  | number (number : Nat)
  | text (text : String)
  | value (operand : Operand)

/-- A description given by its fields, or read from an object. -/
inductive DescriptorOperand where
  | fields (value : Option Operand) (writable : Option Bool) (get set : Option Operand)
      (enumerable configurable : Option Bool)
  | read (source : Operand)

inductive SlotOperand where
  | data (value : Operand)
  | accessor (getter setter : Option Operand)

inductive TransitionOperand where
  | add (key : KeyOperand) (attributes : Attributes) (kind : PropertyKind)
  | remove (key : KeyOperand)
  | reconfigure (key : KeyOperand) (attributes : Attributes) (kind : PropertyKind)
  | preventExtensions
  | protect (level : Integrity)

/-- What a `throw` step fails with. -/
inductive ThrowOperand where
  | value (operand : Operand)
  | typeError (message : String)
  | rangeError (message : String)

/-- The store that a step works in. -/
abbrev StoreName := String

/-- Steps that make things. -/
inductive Making where
  | store (name : String) (config : Config)
  | symbol (description : Option String)
  | object (prototype : Option Operand) (isLiteral : Bool) (store : StoreName)
  | arrayLike (items : List Operand) (store : StoreName)
  | proxy (target handler : Operand) (store : StoreName)
  | revocable (target handler : Operand) (revoke : String) (store : StoreName)
  | revoke (proxy : Operand)

/-- Steps that call an internal method, or an operation made of them. -/
inductive Method where
  | getPrototypeOf (object : Operand)
  | setPrototypeOf (object : Operand) (prototype : Option Operand)
  | isExtensible (object : Operand)
  | preventExtensions (object : Operand) (strict : Bool)
  | getOwnProperty (object : Operand) (key : KeyOperand)
  | define (object : Operand) (key : KeyOperand) (change : DescriptorOperand)
      (strict : Bool)
  | defineOrThrow (object : Operand) (key : KeyOperand) (change : DescriptorOperand)
  | has (object : Operand) (key : KeyOperand)
  | hasOwn (object : Operand) (key : KeyOperand)
  | find (object : Operand) (key : KeyOperand) (receiver : Operand)
  | get (object : Operand) (key : KeyOperand) (receiver : Operand)
  | getValue (object : Operand) (key : KeyOperand)
  | set (object : Operand) (key : KeyOperand) (value receiver : Operand) (strict : Bool)
  | put (object : Operand) (key : KeyOperand) (value : Operand) (strict : Bool)
  | delete (object : Operand) (key : KeyOperand) (strict : Bool)
  | ownKeys (object : Operand) (strings symbols : Bool)
  | create (object : Operand) (key : KeyOperand) (value : Operand)
  | createOrThrow (object : Operand) (key : KeyOperand) (value : Operand)
  | setIntegrity (object : Operand) (level : Integrity) (strict : Bool)
  | testIntegrity (object : Operand) (level : Integrity)
  | call (object receiver : Operand) (arguments : List Operand)
  | readMember (object : Operand) (name : String)
  | hasMember (object : Operand) (name : String)
  | invokeMember (object : Operand) (name : String) (arguments : List Operand)

/-- Steps that exercise one part of the model. -/
inductive Part where
  | add (left right : Operand)
  | describe (descriptor : DescriptorOperand) (store : StoreName)
  | readDescription (source : Operand)
  | inspectDescriptor (descriptor : DescriptorOperand)
  | isCompatible (change : DescriptorOperand) (current : Option DescriptorOperand)
      (key : KeyOperand) (extensible : Bool)
  | validate (change : DescriptorOperand) (current : Option DescriptorOperand)
      (target : Option Operand) (key : KeyOperand) (extensible strict : Bool)
  | setWithOwn (own : DescriptorOperand) (key : KeyOperand) (value receiver : Operand)
      (strict : Bool)
  | invokeSetter (setter receiver value : Operand)
  | admitsPrototype (object : Operand) (prototype : Option Operand)
  | walk (start : Option Operand)
  | same (left right : Operand)
  | looselySame (left right : Operand)
  | toBoolean (value : Operand)
  | inspectValue (value : Operand)
  | inspectKey (key : KeyOperand)
  | compareKeys (left right : KeyOperand)
  | sortKeys (keys : List KeyOperand)
  | protectAttributes (attributes : Attributes)
  | exchangeKey (old new : KeyOperand)
  | inspectObject (object : Operand)
  | inspectMode (object : Operand)

/-- Steps on shapes and on named handles to them. -/
inductive ShapeStep where
  | transition (source target : String) (step : TransitionOperand) (store : StoreName)
  | ofObject (object : Operand) (target : String)
  | same (left right : String)
  | objectsShare (left right : Operand)
  | drop (shape : String)
  | lookup (shape : String) (key : KeyOperand)
  | display (shape : String)
  | created (store : StoreName)

/-- Steps on a named dictionary. -/
inductive DictionaryStep where
  | new
  | ofShape (shape : String) (slots : List SlotOperand)
  | insert (key : KeyOperand) (attributes : Attributes) (slot : SlotOperand)
  | get (key : KeyOperand)
  | erase (key : KeyOperand)
  | update (key : KeyOperand) (attributes : Attributes) (slot : SlotOperand)
  | keys
  | entries
  | protect (level : Integrity)
  | preventExtensions
  | isExtensible

/-- A step without steps inside. -/
inductive Action where
  | assign (value : Operand)
  | note (value : Operand)
  | throw (failure : ThrowOperand)
  | making (step : Making)
  | method (step : Method)
  | part (step : Part)
  | shape (step : ShapeStep)
  | dictionary (name : String) (step : DictionaryStep)

mutual

inductive Step where
  /-- An action whose value is bound to a variable, if one is named. -/
  | act (action : Action) (target : Option String)
  | return (value : Operand)
  | function (name : String) (body : List Step) (prototype : Option Operand)
      (isQuiet : Bool) (store : StoreName) (target : Option String)
  | conditional (condition : Operand) (onTrue onFalse : List Step)
  | switch (subject : Operand) (cases : List Case) (otherwise : List Step)
  | attempt (steps : List Step) (target : Option String)
  | repeat (times : Nat) (counter : String) (steps : List Step)

inductive Case where
  | mk (value : Operand) (steps : List Step)

end

end ObjectModel.Scenario
