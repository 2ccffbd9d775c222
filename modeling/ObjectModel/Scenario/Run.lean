import ObjectModel.Scenario.Action

/-!
Contract: running a scenario.

Every top-level step has one reply, also when it fails; the next step goes on with
the heap as it is. The functions of a scenario are host code, so they run inside the
internal methods that call them.
-/

namespace ObjectModel.Scenario

open Play

/-- Whether an answer is written as null, and so gives way to a bound value. -/
def Answer.isNull : Answer → Bool
  | .nothing | .objectOrNull none | .descriptor none => true
  | _ => false

/-- Binds what an action left, gives up the objects it made, and answers. The answer is
labelled before the value is bound, so only a value that stands in for a null answer
takes the name that it is bound to as its label. -/
def Outcome.settle (target : Option String) (outcome : Outcome) : Play Answer := do
  mention outcome.answer.mentions
  match target, outcome.bound with
  | some name, some value => assign name value
  | _, _ => pure ()
  match outcome.alsoBound with
  | some (name, value) => assign name value
  | none => pure ()
  outcome.made.forM fun id => request (.release id)
  match target, outcome.bound with
  | some _, some value => return if outcome.answer.isNull then .value value else outcome.answer
  | _, _ => return outcome.answer

/-- A body run `times` times, with its counter bound from `count` on. -/
def repeatBody (counter : String) (body : Play Unit) : (times count : Nat) → Play Unit
  | 0, _ => return ()
  | times + 1, count => do
      assign counter (.number (.ofInt count))
      body
      repeatBody counter body times (count + 1)

mutual

def Step.run (frame : Frame) : Step → Play Answer
  | .act action target => do (← runAction frame target.isSome action).settle target
  | .return value => do throw (.returned (← value.evaluate frame))
  | .function name body prototype isQuiet store target => do
      let prototype ← Operand.object? frame prototype
      let code := (← session).functions.size
      modifySession fun session =>
        { session with functions := session.functions.push ⟨name, isQuiet, body⟩ }
      let id ← request (.newFunction (← storeOf store) prototype name code)
      (Outcome.ofMade id).settle target
  | .conditional condition onTrue onFalse => do
      if (← condition.evaluate frame).toBoolean then runAll frame onTrue
      else runAll frame onFalse
      return .nothing
  | .switch subject cases otherwise => do
      runCase frame (← subject.evaluate frame) (runAll frame otherwise) cases
      return .nothing
  | .attempt steps target => do
      match ← settle (runAll frame steps) with
      | .ok () => (Outcome.ofValue .undefined).settle target
      | .error (.failed (.thrown value)) => (Outcome.ofValue value).settle target
      | .error (.failed error) => do
          let message := error.message (← heap).objectName
          (Outcome.ofValue (.string message)).settle target
      | .error interrupt => throw interrupt
  | .repeat times counter steps => do
      repeatBody counter (runAll frame steps) times 0
      return .nothing

def runAll (frame : Frame) : List Step → Play Unit
  | [] => return ()
  | step :: rest => do
      let _ ← step.run frame
      runAll frame rest

/-- The first case whose value is the subject, or else `otherwise`. -/
def runCase (frame : Frame) (subject : Value) (otherwise : Play Unit) :
    List Case → Play Unit
  | [] => otherwise
  | .mk value steps :: rest => do
      if subject.same (← value.evaluate frame) then runAll frame steps
      else runCase frame subject otherwise rest

end

/-- What a function of the scenario does when it is called. -/
def FunctionCode.run (code : FunctionCode) (receiver : Value) (arguments : List Value) :
    Script Session (Except Error Value) := do
  let play : Play Unit := do
    if !code.isQuiet then log (.called code.name receiver arguments)
    runAll ⟨receiver, arguments⟩ code.body
  match ← play.run with
  | .ok () => return .ok .undefined
  | .error (.returned value) => return .ok value
  | .error (.failed error) => return .error error
  | .error (.member fault) => return .error (.type (.raised fault.message))
  | .error (.unknownName name) => return .error (.type (.raised ("unknown name " ++ name)))

/-- The code of the functions that the session has. -/
def host : Host Session := fun code receiver arguments =>
  .look fun session =>
    match session.functions[code]? with
    | some code => code.run receiver arguments
    | none => .done (.ok .undefined)

/-- Why a top-level step failed. -/
inductive Failure where
  | error (error : Error) (message : String)
  | member (fault : MemberFault)
  /-- The scenario itself is broken. -/
  | broken

structure Reply where
  result : Except Failure Answer
  log : List LogEntry

/-- The reply to one top-level step. The answer of a step is labelled already; the thrown
value of one that failed is labelled here. -/
def Step.reply (step : Step) : Play Reply := do
  let result ← settle (step.run {})
  let result : Except Failure Answer ← match result with
    | .ok answer => pure (.ok answer)
    | .error (.returned _) => pure (.ok .nothing)
    | .error (.failed error) => do
        let message := error.message (← heap).objectName
        match error with
        | .thrown value => mention value.named
        | _ => pure ()
        pure (.error (.error error message))
    | .error (.member fault) => pure (.error (.member fault))
    | .error (.unknownName _) => pure (.error .broken)
  let entries := (← session).log.reverse
  modifySession fun session => { session with log := [] }
  return ⟨result, entries⟩

/-- How deep the internal methods of a scenario may nest. -/
def methodFuel : Nat := 1000000

/-- The world of a scenario before its first step: one store, named `main`. -/
def start (config : Config) : World Session :=
  let (heap, main) := ({} : Heap).addStore config
  { heap := heap, client := { stores := [("main", main)] } }

/-- Replies to the steps, and the world after them. -/
def runSteps (world : World Session) : List Step → List Reply × World Session
  | [] => ([], world)
  | step :: rest =>
      let (reply, world) : Reply × World Session :=
        match (step.reply.run.run host methodFuel) world with
        | .ok (.ok reply) world => (reply, world)
        | .ok (.error _) world => (⟨.error .broken, []⟩, world)
        | .error _ world => (⟨.error .broken, []⟩, world)
      let (replies, world) := runSteps world rest
      (reply :: replies, world)

/-- What a scenario answers, and the labels of what it wrote. -/
def run (config : Config) (steps : List Step) : List Reply × Labels :=
  let (replies, world) := runSteps (start config) steps
  (replies, world.client.labels)

end ObjectModel.Scenario
