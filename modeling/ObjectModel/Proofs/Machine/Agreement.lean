import ObjectModel.Proofs.Machine.Requests

/-!
Contract: computations that run alike in worlds with the same heap.

Two computations agree if from related worlds they end in related worlds, with the same
answer or the same fault. The relation is left open, and so are the states of user code on
both sides. It only has to be `Compatible`: related worlds have the same heap, and stay
related when both take the same allowed command. This is the simulation that leaves nothing
open, where the second machine needs no more fuel than the first.

A computation that agrees with itself in equal worlds takes allowed commands only; one that
agrees with a copy of itself beside more state does not look at that state.

A request is proper if it makes no mixed definition and does not apply a definition that was
validated against a made-up description. `Script.Similar` relates two scripts that ask for
the same proper requests, whatever they keep in their own states.
-/

namespace ObjectModel

open Heap (Command)

variable {σ τ : Type}

/-- No definition mixes data and accessor fields. -/
def Call.IsProper : Call → Prop
  | .defineOwnProperty _ _ change => change.isMixed = false
  | _ => True

/-- The request goes through the internal methods, and makes no mixed definition. -/
def Request.IsProper : Request → Prop
  | .call method => method.IsProper
  | .validate (some _) _ _ _ _ => False
  | _ => True

/-- Worlds that look the same to internal methods, and do so after every allowed step. -/
structure Compatible (related : World σ → World τ → Prop) : Prop where
  heap_eq : ∀ {left right}, related left right → right.heap = left.heap
  depth_eq : ∀ {left right}, related left right → right.depth = left.depth
  command : ∀ {left right}, related left right →
    ∀ command : Command, command.Allowed left.heap →
      related { left with heap := (command.run left.heap).1 }
        { right with heap := (command.run left.heap).1 }
  depth : ∀ {left right}, related left right →
    ∀ depth, related { left with depth := depth } { right with depth := depth }

/-- The same answer or the same fault, in related worlds. -/
inductive Matches (related : World σ → World τ → Prop) {α : Type} :
    EStateM.Result Fault (World σ) α → EStateM.Result Fault (World τ) α → Prop
  | ok (answer : α) {left : World σ} {right : World τ} (worlds : related left right) :
      Matches related (.ok answer left) (.ok answer right)
  | error (fault : Fault) {left : World σ} {right : World τ} (worlds : related left right) :
      Matches related (.error fault left) (.error fault right)

/-- Related worlds lead to results that match. -/
def Agrees (related : World σ → World τ → Prop) {α : Type} (first : Exec σ α)
    (second : Exec τ α) : Prop :=
  ∀ left right, related left right → Matches related (first left) (second right)

/-- Dispatches that agree on every proper method. -/
structure DispatchAgrees (related : World σ → World τ → Prop) (first : Dispatch σ)
    (second : Dispatch τ) : Prop where
  method : ∀ method : Call, method.IsProper → Agrees related (first method) (second method)
  readsOwn : ∀ {left : World σ} {right : World τ}, related left right → ReadsOwn first left

/-- Scripts that ask for the same proper requests, and keep related worlds related. -/
inductive Script.Similar (related : World σ → World τ → Prop) {α : Type} :
    Script σ α → Script τ α → Prop
  | done (result : α) : Similar related (.done result) (.done result)
  | ask (request : Request) (proper : request.IsProper)
      {next : Except Error request.Answer → Script σ α}
      {next' : Except Error request.Answer → Script τ α}
      (rest : ∀ answer, Similar related (next answer) (next' answer)) :
      Similar related (.ask request next) (.ask request next')
  | look {next : σ → Script σ α} {next' : τ → Script τ α}
      (rest : ∀ left right, related left right →
        Similar related (next left.client) (next' right.client)) :
      Similar related (.look next) (.look next')
  | update {change : σ → σ} {change' : τ → τ} {next : Script σ α} {next' : Script τ α}
      (keeps : ∀ left right, related left right →
        related { left with client := change left.client }
          { right with client := change' right.client })
      (rest : Similar related next next') :
      Similar related (.update change next) (.update change' next')

/-- The code of every function is similar. -/
def Host.Similar (related : World σ → World τ → Prop) (host : Host σ) (host' : Host τ) : Prop :=
  ∀ code this arguments,
    Script.Similar related (host code this arguments) (host' code this arguments)

/-! ### The simulation -/

/-- Everything is asked for but mixed definitions. -/
def Scope.proper : Scope where
  changes change := change.isMixed = false
  prototypes _ := True
  levels _ := True
  storage := True
  writable := True
  changes_of_not_mixed := id
  prototypes_none := trivial

theorem Call.within_proper {method : Call} : method.Within .proper ↔ method.IsProper := by
  cases method <;> exact Iff.rfl

theorem Request.IsProper.within {request : Request} (proper : request.IsProper) :
    request.Within .proper := by
  cases request with
  | call method => exact Call.within_proper.mpr proper
  | validate target key extensible change current =>
      cases target with
      | none => trivial
      | some id => contradiction
  | _ => trivial

theorem Heap.Command.allowed_of_within {heap : Heap} {command : Command}
    (within : command.Within .proper heap) : command.Allowed heap := by
  cases command with
  | setPrototypeOf id prototype => exact within.1
  | setIntegrity id level => exact within.1
  | writeData id key value => exact ⟨within.1, within.2 trivial⟩
  | preventExtensions id => exact within
  | deleteOwn id key => exact within
  | defineOwn id key change => exact within
  | _ => trivial

variable {related : World σ → World τ → Prop} (compatible : Compatible related)

/-- A compatible relation is a simulation. -/
def Compatible.simulation : Simulation σ τ where
  scope := .proper
  early _ := False
  related := related
  alike := fun worlds => by
    rw [compatible.heap_eq worlds]
    exact .refl _ _
  heap_eq := fun _ => compatible.heap_eq
  command := fun worlds command within => by
    rw [compatible.heap_eq worlds]
    exact ⟨rfl, compatible.command worlds command (Command.allowed_of_within within)⟩
  applies := False
  validate := False.elim

theorem Compatible.framesAlike : compatible.simulation.FramesAlike where
  limit_eq := fun worlds _ => by rw [compatible.heap_eq worlds]
  depth_eq := compatible.depth_eq
  depth := compatible.depth

namespace Agrees

variable {α : Type} {first : Exec σ α} {second : Exec τ α}

theorem outOfFuel :
    Agrees related (Exec.outOfFuel : Exec σ α) (Exec.outOfFuel : Exec τ α) :=
  fun _ _ worlds => .error .outOfFuel worlds

theorem iff_simulation :
    Agrees related first second ↔ compatible.simulation.Agrees first fun _ => second := by
  constructor
  · intro agrees left right worlds
    have results := agrees left right worlds
    show compatible.simulation.Follows (first left) fun _ => second right
    generalize first left = result, second right = result' at results
    cases results with
    | ok answer worlds' => exact .ok answer worlds' (.of_forall fun _ => rfl)
    | error fault worlds' => exact .error fault worlds' (.of_forall fun _ => rfl)
  · intro agrees left right worlds
    have results : compatible.simulation.Follows (first left) fun _ => second right :=
      agrees left right worlds
    generalize first left = result, second right = result' at results
    cases results with
    | early world allowed => exact allowed.elim
    | ok answer worlds' ends =>
        obtain rfl := Filter.eventually_const.mp ends
        exact .ok answer worlds'
    | error fault worlds' ends =>
        obtain rfl := Filter.eventually_const.mp ends
        exact .error fault worlds'

end Agrees

theorem Script.Similar.simulation {α : Type} {script : Script σ α} {script' : Script τ α}
    (similar : Script.Similar related script script') :
    compatible.simulation.Similar script script' := by
  induction similar with
  | done result => exact .done result
  | ask request proper rest inductionHypothesis =>
      exact .ask request (Simulation.admits_of_within proper.within) inductionHypothesis
  | look rest inductionHypothesis => exact .look inductionHypothesis
  | update keeps rest inductionHypothesis => exact .update keeps inductionHypothesis

variable {first : Dispatch σ} {second : Dispatch τ}
  (dispatches : DispatchAgrees related first second)

theorem DispatchAgrees.simulation (dispatches : DispatchAgrees related first second) :
    compatible.simulation.Dispatches first fun _ => second where
  method := fun method within => (Agrees.iff_simulation compatible).mp
    (dispatches.method method (Call.within_proper.mp within))
  readsOwn := fun _ _ _ worlds => dispatches.readsOwn worlds

include compatible dispatches

/-! ### What agrees -/

theorem Machine.findTrap_agrees (proxy : ObjectId) (trap : Trap) :
    Agrees related (findTrap first proxy trap) (findTrap second proxy trap) :=
  (Agrees.iff_simulation compatible).mpr
    ((dispatches.simulation compatible).findTrap_agrees proxy trap)

theorem Machine.readDescription_agrees (value : Value) :
    Agrees related (readDescription first value) (readDescription second value) :=
  (Agrees.iff_simulation compatible).mpr
    ((dispatches.simulation compatible).readDescription_agrees value)

theorem Machine.readKeyList_agrees (value : Value) :
    Agrees related (readKeyList first value) (readKeyList second value) :=
  (Agrees.iff_simulation compatible).mpr
    ((dispatches.simulation compatible).readKeyList_agrees value)

/-- Similar scripts agree. -/
theorem Script.exec_agrees {α : Type} {script : Script σ α} {script' : Script τ α}
    (similar : Script.Similar related script script') :
    Agrees related (script.exec (Request.perform first))
      (script'.exec (Request.perform second)) :=
  (Agrees.iff_simulation compatible).mpr
    ((dispatches.simulation compatible).exec_agrees (similar.simulation compatible))

/-- A method agrees if the methods and the user code that it calls agree. -/
theorem Call.step_agrees {host : Host σ} {host' : Host τ}
    (hosts : Host.Similar related host host') {method : Call} (proper : method.IsProper) :
    Agrees related (Call.step host first method) (Call.step host' second method) :=
  have dispatches := dispatches.simulation compatible
  (Agrees.iff_simulation compatible).mpr (dispatches.step_agrees compatible.framesAlike
    (dispatches.codeAgrees fun code this arguments =>
      (hosts code this arguments).simulation compatible)
    (Call.within_proper.mpr proper))

end ObjectModel
