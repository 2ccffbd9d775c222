import ObjectModel.Scenario.Answer
import Std.Data.HashMap
import Std.Data.HashSet

/-!
Contract: what a running scenario remembers.

A session has the named things of a scenario, the code of its functions, the labels
of the objects and symbols that were named or written so far, and the log of calls
and notes since the last top-level step.

An object gets one label and is held from then on, so a label never changes its
meaning. `Play` is the monad of steps: scripts on a session that a step may leave
early.
-/

namespace ObjectModel.Scenario

/-- Something that happened while a step ran. -/
inductive LogEntry where
  | called (name : String) (receiver : Value) (arguments : List Value)
  | note (value : Value)

def LogEntry.mentions : LogEntry → List Named
  | .called _ receiver arguments => receiver.named ++ arguments.flatMap Value.named
  | .note value => value.named

/-- The code of a function object. Calls of a quiet one are not logged. -/
structure FunctionCode where
  name : String
  isQuiet : Bool
  body : List Step

structure Labels where
  /-- The label of everything that has one. -/
  assigned : Std.HashMap Named String := {}
  /-- All labels that were assigned. -/
  used : Std.HashSet String := {}
  /-- Number of the last label made up. -/
  made : Nat := 0

structure Session where
  bindings : List (String × Value) := []
  stores : List (String × StoreId) := []
  shapes : List (String × ShapeId) := []
  dictionaries : List (String × Dictionary) := []
  functions : Array FunctionCode := #[]
  symbols : Nat := 0
  labels : Labels := {}
  /-- Newest first. -/
  log : List LogEntry := []

/-- An association list with one entry for `name`. -/
def bindName {α : Type} (name : String) (value : α) (names : List (String × α)) :
    List (String × α) :=
  (name, value) :: names.filter (·.1 ≠ name)

namespace Labels

def label? (labels : Labels) (named : Named) : Option String :=
  labels.assigned[named]?

def isUsed (labels : Labels) (label : String) : Bool :=
  labels.used.contains label

def insert (labels : Labels) (named : Named) (label : String) : Labels :=
  { labels with
    assigned := labels.assigned.insert named label
    used := labels.used.insert label }

/-- The next label of the form `$1`, `$2`, ... -/
def make (labels : Labels) (named : Named) : Labels :=
  let number := labels.made + 1
  { labels.insert named ("$" ++ toString number) with made := number }

/-- Labels something with a name that is asked for, if it has no label yet. -/
def assign (labels : Labels) (named : Named) (wanted : Option String) : Labels :=
  if (labels.label? named).isSome then labels
  else
    match wanted with
    | none => labels.make named
    | some name =>
        if labels.isUsed name then labels.make named
        else labels.insert named name

end Labels

/-- Why a step does not go on to the next one. -/
inductive Interrupt where
  | returned (value : Value)
  | failed (error : Error)
  | member (fault : MemberFault)
  /-- The scenario names something that it never made. -/
  | unknownName (name : String)

/-- The computations of steps. -/
abbrev Play := ExceptT Interrupt (Script Session)

namespace Play

variable {α : Type}

def session : Play Session := ExceptT.lift (.look .done)

def modifySession (change : Session → Session) : Play Unit :=
  ExceptT.lift (.update change (.done ()))

/-- The answer of a request; an error fails the step. -/
def request (request : Request) : Play request.Answer :=
  ExceptT.mk (.ask request fun
    | .ok answer => .done (.ok answer)
    | .error error => .done (.error (.failed error)))

def call (method : Call) : Play method.Answer := request (.call method)

def heap : Play Heap := request .inspect

def fail (error : Error) : Play α := throw (.failed error)

def typeError (message : String) : Play α := fail (.type (.raised message))

/-- A verdict as strict and other callers see it. -/
def report (strict : Bool) (verdict : Verdict) : Play Bool :=
  match verdict.report strict with
  | .ok accepted => return accepted
  | .error error => fail error

/-- A member, or the fault that stands in its place. -/
def member (answer : Except MemberFault α) : Play α :=
  match answer with
  | .ok value => return value
  | .error fault => throw (.member fault)

/-- The computation with its interrupt as an answer. -/
def settle (play : Play α) : Play (Except Interrupt α) :=
  ExceptT.lift play.run

/-- A computation with objects in hand: they are held until it ends. -/
def holding (objects : List ObjectId) (play : Play α) : Play α := do
  objects.forM fun id => request (.hold id)
  let result ← settle play
  objects.forM fun id => request (.release id)
  match result with
  | .ok answer => return answer
  | .error interrupt => throw interrupt

/-- Labels something, with a wanted name or the next made one. An object that gets a
label is held from then on. -/
def label (named : Named) (wanted : Option String) : Play Unit := do
  if ((← session).labels.label? named).isNone then
    modifySession fun session =>
      { session with labels := session.labels.assign named wanted }
    match named with
    | .object id => request (.hold id)
    | .symbol _ => pure ()

/-- Labels what is about to be written. -/
def mention (mentions : List Named) : Play Unit :=
  mentions.forM fun named => label named none

/-- Logs what happened, written at once. -/
def log (entry : LogEntry) : Play Unit := do
  mention entry.mentions
  modifySession fun session => { session with log := entry :: session.log }

/-- Sets a variable. Its name becomes the label of a value without one. -/
def assign (name : String) (value : Value) : Play Unit := do
  value.named.forM fun named => label named (some name)
  modifySession fun session =>
    { session with bindings := bindName name value session.bindings }

/-- The value of a variable. -/
def valueOf (name : String) : Play Value := do
  match (← session).bindings.lookup name with
  | some value => return value
  | none => throw (.unknownName name)

/-- The store with a name. -/
def storeOf (name : StoreName) : Play StoreId := do
  match (← session).stores.lookup name with
  | some store => return store
  | none => throw (.unknownName name)

/-- The shape that a handle names. In every store `root` names its root, also when a
handle has that name. -/
def shapeOf (name : String) (store : StoreId) : Play ShapeId := do
  if name = "root" then return ((← heap).store store).root
  else
    match (← session).shapes.lookup name with
    | some shape => return shape
    | none => throw (.unknownName name)

/-- Forgets a handle to a shape. -/
def dropShape (name : String) : Play Unit := do
  match (← session).shapes.lookup name with
  | none => pure ()
  | some shape =>
      modifySession fun session =>
        { session with shapes := session.shapes.filter (·.1 ≠ name) }
      request (.releaseShape shape)

/-- Names a shape that is already held, in place of an older handle. -/
def nameShape (name : String) (shape : ShapeId) : Play Unit := do
  dropShape name
  modifySession fun session =>
    { session with shapes := (name, shape) :: session.shapes }

/-- The dictionary with a name. -/
def dictionaryOf (name : String) : Play Dictionary := do
  match (← session).dictionaries.lookup name with
  | some dictionary => return dictionary
  | none => throw (.unknownName name)

/-- Names a dictionary, in place of an older one. What is in it is held until it is
replaced. -/
def setDictionary (name : String) (dictionary : Dictionary) : Play Unit := do
  let replaced := (← session).dictionaries.lookup name
  dictionary.references.forM fun id => request (.hold id)
  modifySession fun session =>
    { session with dictionaries := bindName name dictionary session.dictionaries }
  (replaced.toList.flatMap Dictionary.references).forM fun id => request (.release id)

end Play

end ObjectModel.Scenario
