import Mathlib.Order.Filter.AtTopBot.Basic
import ObjectModel.Machine.Run
import ObjectModel.Proofs.Heap.Command
import ObjectModel.Proofs.Machine.Exec

/-!
Contract: two machines side by side.

A `Simulation` relates the worlds of two machines. Related worlds look alike to internal
methods (`Heap.Resembles`), and stay related when both take the same command. The second
machine has a computation for every amount of fuel. It follows the first one if from related
worlds, once it has fuel enough, it ends in related worlds with the same answer or the same
fault. A simulation may leave open what becomes of the second machine where the first one runs
out of fuel early.

How deep the machines are dispatching is up to the relation. Where it is the same on both sides
and no limit differs (`Simulation.FramesAlike`), proxies need no further care; elsewhere the
computation in a frame may have to follow as another simulation says (`Simulation.Enters`).

A `Scope` limits what internal methods are asked for, so a simulation has to be right about
the commands within its scope only.

Owns: agreement of every way to build a computation. Does not own: the internal methods.
-/

namespace ObjectModel

open Filter
open Heap (Command)

/-! ### Scopes -/

/-- What internal methods may be asked for, by user code and so by each other. -/
structure Scope where
  changes : Descriptor → Prop
  prototypes : Option ObjectId → Prop
  /-- The targets and handlers of new proxies. -/
  references : ObjectId → Prop := fun _ => True
  levels : Integrity → Prop
  /-- Shapes may be handled and the whole heap be seen. -/
  storage : Prop
  /-- A value is written in place only where the property is known to be writable. -/
  writable : Prop
  changes_of_not_mixed : ∀ {change : Descriptor}, change.isMixed = false → changes change
  prototypes_none : prototypes none

/-- No limit on what methods are asked for. -/
def Scope.all : Scope where
  changes _ := True
  prototypes _ := True
  levels _ := True
  storage := True
  writable := False
  changes_of_not_mixed _ := trivial
  prototypes_none := trivial

def Call.Within (scope : Scope) : Call → Prop
  | .setPrototypeOf _ prototype => scope.prototypes prototype
  | .defineOwnProperty _ _ change => scope.changes change
  | _ => True

theorem Call.within_all (method : Call) : method.Within .all := by
  cases method <;> trivial

/-- A definition that was validated against a made-up description is not applied. -/
def Request.Within (scope : Scope) : Request → Prop
  | .call method => method.Within scope
  | .newObject _ prototype _ | .newFunction _ prototype _ _ => scope.prototypes prototype
  | .newProxy _ target handler => scope.references target ∧ scope.references handler
  | .setIntegrity _ level | .testIntegrity _ level => scope.levels level
  | .validate (some _) _ _ _ _ => False
  | .transition _ _ _ | .holdShape _ | .releaseShape _ | .inspect => scope.storage
  | _ => True

/-- Internal methods and user code within the scope may take the command here. Literals are
plain objects. -/
def Heap.Command.Within (scope : Scope) (heap : Heap) : Command → Prop
  | .allocate _ kind prototype isLiteral =>
      scope.prototypes prototype ∧ (∀ id ∈ kind.references, scope.references id) ∧
        (isLiteral = true → kind = .ordinary)
  | .setPrototypeOf id prototype => heap.isExotic id = false ∧ scope.prototypes prototype
  | .preventExtensions id | .deleteOwn id _ => heap.isExotic id = false
  | .setIntegrity id level => heap.isExotic id = false ∧ scope.levels level
  | .defineOwn id _ change => heap.isExotic id = false ∧ scope.changes change
  | .writeData id key _ =>
      heap.isExotic id = false ∧ (scope.writable → ∃ attributes old,
        heap.lookup id key = some (attributes, .data old) ∧ attributes.writable = true)
  | .transition _ _ _ | .holdShape _ | .releaseShape _ => scope.storage
  | _ => True

/-! ### Heaps that look alike -/

/-- Everything that internal methods see of two heaps is the same, how deep proxies may nest
apart. How far objects are protected is only compared at the given levels. -/
structure Heap.Resembles (levels : Integrity → Prop) (left right : Heap) : Prop where
  size_eq : right.objects.size = left.objects.size
  store_eq : ∀ id, (right.object id).store = (left.object id).store
  kind_eq : ∀ id, right.kind id = left.kind id
  prototype_eq : ∀ id, right.prototype id = left.prototype id
  lookup_eq : ∀ id key, right.lookup id key = left.lookup id key
  hasData_eq : ∀ id key, right.hasData id key = left.hasData id key
  isExtensible_eq : ∀ id, right.isExtensible id = left.isExtensible id
  ownKeys_eq : ∀ id, right.ownKeys id = left.ownKeys id
  testIntegrity_eq : ∀ id {level}, levels level →
    right.testIntegrity id level = left.testIntegrity id level

/-- Everything that internal methods see of two heaps is the same. How far objects are
protected is only compared at the given levels. -/
structure Heap.Alike (levels : Integrity → Prop) (left right : Heap) : Prop where
  size_eq : right.objects.size = left.objects.size
  store_eq : ∀ id, (right.object id).store = (left.object id).store
  kind_eq : ∀ id, right.kind id = left.kind id
  prototype_eq : ∀ id, right.prototype id = left.prototype id
  maxProxyDepth_eq : ∀ id, (right.config id).maxProxyDepth = (left.config id).maxProxyDepth
  lookup_eq : ∀ id key, right.lookup id key = left.lookup id key
  hasData_eq : ∀ id key, right.hasData id key = left.hasData id key
  isExtensible_eq : ∀ id, right.isExtensible id = left.isExtensible id
  ownKeys_eq : ∀ id, right.ownKeys id = left.ownKeys id
  testIntegrity_eq : ∀ id {level}, levels level →
    right.testIntegrity id level = left.testIntegrity id level

theorem Heap.Alike.resembles {levels : Integrity → Prop} {left right : Heap}
    (alike : left.Alike levels right) : left.Resembles levels right where
  size_eq := alike.size_eq
  store_eq := alike.store_eq
  kind_eq := alike.kind_eq
  prototype_eq := alike.prototype_eq
  lookup_eq := alike.lookup_eq
  hasData_eq := alike.hasData_eq
  isExtensible_eq := alike.isExtensible_eq
  ownKeys_eq := alike.ownKeys_eq
  testIntegrity_eq := alike.testIntegrity_eq

namespace Heap.Resembles

theorem refl (levels : Integrity → Prop) (heap : Heap) : heap.Resembles levels heap where
  size_eq := rfl
  store_eq := fun _ => rfl
  kind_eq := fun _ => rfl
  prototype_eq := fun _ => rfl
  lookup_eq := fun _ _ => rfl
  hasData_eq := fun _ _ => rfl
  isExtensible_eq := fun _ => rfl
  ownKeys_eq := fun _ => rfl
  testIntegrity_eq := fun _ _ _ => rfl

variable {levels : Integrity → Prop} {left right : Heap} (alike : left.Resembles levels right)

include alike

theorem proxy?_eq (id : ObjectId) : right.proxy? id = left.proxy? id := by
  rw [proxy?, proxy?, alike.kind_eq]

theorem isExotic_eq (id : ObjectId) : right.isExotic id = left.isExotic id := by
  rw [isExotic, isExotic, alike.proxy?_eq]

theorem isCallable_eq (id : ObjectId) : right.isCallable id = left.isCallable id :=
  isCallable_congr alike.size_eq alike.kind_eq id

theorem isFunction_eq (value : Value) : right.isFunction value = left.isFunction value := by
  cases value with
  | object id => exact alike.isCallable_eq id
  | _ => rfl

theorem getOwn_eq (id : ObjectId) (key : PropertyKey) :
    right.getOwn id key = left.getOwn id key := by
  rw [getOwn, getOwn, alike.lookup_eq]

theorem walk_eq (start : Option ObjectId) : right.walk start = left.walk start := by
  have within : ∀ steps start, right.walkWithin steps start = left.walkWithin steps start := by
    intro steps
    induction steps with
    | zero => exact fun _ => rfl
    | succ steps inductionHypothesis =>
        intro start
        cases start with
        | none => rfl
        | some id =>
            rw [walkWithin, walkWithin, alike.isExotic_eq, alike.prototype_eq,
              inductionHypothesis]
  rw [walk, walk, alike.size_eq, within]

theorem admitsPrototype_eq (id : ObjectId) (prototype : Option ObjectId) :
    right.admitsPrototype id prototype = left.admitsPrototype id prototype := by
  rw [admitsPrototype, admitsPrototype, alike.walk_eq]

theorem findProperty_eq (id : ObjectId) (key : PropertyKey) :
    right.findProperty id key = left.findProperty id key := by
  have search : ∀ steps, right.searchChain key steps = left.searchChain key steps := by
    intro steps
    induction steps with
    | nil => rfl
    | cons step rest inductionHypothesis =>
        cases step with
        | exotic id => rfl
        | ordinary id => rw [searchChain, searchChain, alike.lookup_eq, inductionHypothesis]
  rw [findProperty, findProperty, alike.walk_eq, search]

theorem inHand_eq (holder : ObjectId) (slot : Slot) :
    right.inHand holder slot = left.inHand holder slot := by
  rw [inHand, inHand, alike.prototype_eq]

end Heap.Resembles

/-! ### Simulations -/

/-- Two machines whose related worlds look alike and take the same commands. -/
structure Simulation (σ τ : Type) where
  scope : Scope
  /-- With this state the first machine may run out of fuel where the second one goes on. -/
  early : σ → Prop
  related : World σ → World τ → Prop
  alike : ∀ {left right}, related left right → left.heap.Resembles scope.levels right.heap
  heap_eq : scope.storage → ∀ {left right}, related left right → right.heap = left.heap
  command : ∀ {left right}, related left right →
    ∀ command : Command, command.Within scope left.heap →
      (command.run right.heap).2 = (command.run left.heap).2 ∧
        related { left with heap := (command.run left.heap).1 }
          { right with heap := (command.run right.heap).1 }
  /-- A definition that was validated against a made-up description may be applied. -/
  applies : Prop
  validate : applies → ∀ {left right}, related left right → ∀ id key extensible change current,
    let step := fun heap : Heap =>
      heap.validateAndApply (some id) key extensible change current
    (step right.heap).2 = (step left.heap).2 ∧
      related { left with heap := (step left.heap).1 } { right with heap := (step right.heap).1 }

namespace Simulation

variable {σ τ : Type} {simulation : Simulation σ τ} {α β : Type}

/-- With enough fuel the second machine gets the same answer or the same fault, in related
worlds. -/
inductive Follows (simulation : Simulation σ τ) {α : Type} :
    EStateM.Result Fault (World σ) α → (Nat → EStateM.Result Fault (World τ) α) → Prop
  | early (world : World σ) (allowed : simulation.early world.client)
      (results : Nat → EStateM.Result Fault (World τ) α) :
      Follows simulation (.error .outOfFuel world) results
  | ok (answer : α) {left : World σ} {right : World τ} (worlds : simulation.related left right)
      {results : Nat → EStateM.Result Fault (World τ) α}
      (ends : ∀ᶠ fuel in atTop, results fuel = .ok answer right) :
      Follows simulation (.ok answer left) results
  | error (fault : Fault) {left : World σ} {right : World τ}
      (worlds : simulation.related left right)
      {results : Nat → EStateM.Result Fault (World τ) α}
      (ends : ∀ᶠ fuel in atTop, results fuel = .error fault right) :
      Follows simulation (.error fault left) results

/-- From related worlds the second machine follows the first. -/
def Agrees (simulation : Simulation σ τ) {α : Type} (first : Exec σ α)
    (second : Nat → Exec τ α) : Prop :=
  ∀ left right, simulation.related left right →
    simulation.Follows (first left) fun fuel => second fuel right

namespace Follows

/-! ### One pair of worlds -/

/-- Only what happens with much fuel matters. -/
theorem transport {result : EStateM.Result Fault (World σ) α}
    {results results' : Nat → EStateM.Result Fault (World τ) α}
    (follows : simulation.Follows result results)
    (still : ∀ ending, (∀ᶠ fuel in atTop, results fuel = ending) →
      ∀ᶠ fuel in atTop, results' fuel = ending) : simulation.Follows result results' := by
  cases follows with
  | early world allowed results => exact .early world allowed results'
  | ok answer worlds ends => exact .ok answer worlds (still _ ends)
  | error fault worlds ends => exact .error fault worlds (still _ ends)

theorem congr {result : EStateM.Result Fault (World σ) α}
    {results results' : Nat → EStateM.Result Fault (World τ) α}
    (follows : simulation.Follows result results)
    (same : ∀ᶠ fuel in atTop, results' fuel = results fuel) :
    simulation.Follows result results' :=
  follows.transport fun _ ends => (same.and ends).mono fun _ both => both.1.trans both.2

/-- More fuel is enough as well. -/
theorem succ {result : EStateM.Result Fault (World σ) α}
    {results : Nat → EStateM.Result Fault (World τ) α}
    (follows : simulation.Follows result results) :
    simulation.Follows result fun fuel => results (fuel + 1) :=
  follows.transport fun _ ends => (tendsto_add_atTop_nat 1).eventually ends

theorem of_succ {result : EStateM.Result Fault (World σ) α}
    {results : Nat → EStateM.Result Fault (World τ) α}
    (follows : simulation.Follows result fun fuel => results (fuel + 1)) :
    simulation.Follows result results := by
  refine follows.transport fun _ ends => ?_
  rwa [← map_add_atTop_eq_nat 1, eventually_map]

/-- The rest of a computation has to agree only where it starts. -/
theorem bind {first : Exec σ α} {second : Nat → Exec τ α} {next : α → Exec σ β}
    {next' : Nat → α → Exec τ β} {left : World σ} {right : World τ}
    (results : simulation.Follows (first left) fun fuel => second fuel right)
    (rest : ∀ answer left' right', first left = .ok answer left' →
      simulation.related left' right' →
        simulation.Follows (next answer left') fun fuel => next' fuel answer right') :
    simulation.Follows ((first >>= next) left) fun fuel =>
      (second fuel >>= next' fuel) right := by
  simp only [Exec.bind_apply]
  generalize first left = result at results rest
  cases results with
  | early world allowed results => exact .early world allowed _
  | ok answer worlds ends =>
      exact (rest answer _ _ rfl worlds).congr (ends.mono fun fuel ended => by simp only [ended])
  | error fault worlds ends =>
      exact .error fault worlds (ends.mono fun fuel ended => by simp only [ended])

theorem pure {left : World σ} {right : World τ} (worlds : simulation.related left right)
    {answer answer' : α} (same : answer' = answer) :
    simulation.Follows ((Pure.pure answer : Exec σ α) left) fun _ =>
      (Pure.pure answer' : Exec τ α) right :=
  .ok answer worlds (.of_forall fun _ => by rw [same]; rfl)

/-- A computation on the heap as it is now. -/
theorem withHeap {next : Heap → Exec σ α} {next' : Nat → Heap → Exec τ α} {left : World σ}
    {right : World τ}
    (rest : simulation.Follows (next left.heap left) fun fuel => next' fuel right.heap right) :
    simulation.Follows ((Exec.heap >>= next) left) fun fuel =>
      (Exec.heap >>= next' fuel) right :=
  rest

/-- A step of the heap with the same answer on both sides. -/
theorem onHeap_of_step {left : World σ} {right : World τ} {step : Heap → Heap × α}
    (sameAnswer : (step right.heap).2 = (step left.heap).2)
    (worlds : simulation.related { left with heap := (step left.heap).1 }
      { right with heap := (step right.heap).1 }) :
    simulation.Follows (Exec.onHeap step left) fun _ => Exec.onHeap step right := by
  have left_eq : Exec.onHeap step left =
      .ok (step left.heap).2 { left with heap := (step left.heap).1 } := rfl
  have right_eq : Exec.onHeap step right =
      .ok (step right.heap).2 { right with heap := (step right.heap).1 } := rfl
  rw [left_eq, right_eq, sameAnswer]
  exact .ok _ worlds (.of_forall fun _ => rfl)

theorem onHeapOrRaise_of_step {left : World σ} {right : World τ}
    {step : Heap → Heap × Except TypeFault α}
    (sameAnswer : (step right.heap).2 = (step left.heap).2)
    (worlds : simulation.related { left with heap := (step left.heap).1 }
      { right with heap := (step right.heap).1 }) :
    simulation.Follows (Exec.onHeapOrRaise step left) fun _ =>
      Exec.onHeapOrRaise step right := by
  refine .bind (.onHeap_of_step sameAnswer worlds) fun result _ _ _ worlds' => ?_
  cases result with
  | ok answer => exact .ok answer worlds' (.of_forall fun _ => rfl)
  | error fault => exact .error _ worlds' (.of_forall fun _ => rfl)

/-- A step of the heap that is a command within the scope on both sides. -/
theorem onHeap {left : World σ} {right : World τ} (worlds : simulation.related left right)
    (command : Command) (within : command.Within simulation.scope left.heap)
    (answer : command.Answer → α) {step : Heap → Heap × α}
    (atLeft : step left.heap = ((command.run left.heap).1, answer (command.run left.heap).2))
    (atRight : step right.heap =
      ((command.run right.heap).1, answer (command.run right.heap).2)) :
    simulation.Follows (Exec.onHeap step left) fun _ => Exec.onHeap step right := by
  obtain ⟨sameAnswer, worlds'⟩ := simulation.command worlds command within
  refine .onHeap_of_step ?_ ?_
  · rw [atLeft, atRight, sameAnswer]
  · rwa [atLeft, atRight]

theorem onHeapOrRaise {left : World σ} {right : World τ}
    (worlds : simulation.related left right) (command : Command)
    (within : command.Within simulation.scope left.heap)
    (answer : command.Answer → Except TypeFault α)
    {step : Heap → Heap × Except TypeFault α}
    (atLeft : step left.heap = ((command.run left.heap).1, answer (command.run left.heap).2))
    (atRight : step right.heap =
      ((command.run right.heap).1, answer (command.run right.heap).2)) :
    simulation.Follows (Exec.onHeapOrRaise step left) fun _ =>
      Exec.onHeapOrRaise step right := by
  obtain ⟨sameAnswer, worlds'⟩ := simulation.command worlds command within
  refine .onHeapOrRaise_of_step ?_ ?_
  · rw [atLeft, atRight, sameAnswer]
  · rwa [atLeft, atRight]

end Follows

namespace Agrees

/-! ### Answers and faults -/

theorem pure (answer : α) :
    simulation.Agrees (Pure.pure answer) fun _ => Pure.pure answer :=
  fun _ _ worlds => .pure worlds rfl

theorem raise (error : Error) :
    simulation.Agrees (Exec.raise error : Exec σ α) fun _ => Exec.raise error :=
  fun _ _ worlds => .error (.error error) worlds (.of_forall fun _ => rfl)

theorem typeError (fault : TypeFault) :
    simulation.Agrees (Exec.typeError fault : Exec σ α) fun _ => Exec.typeError fault :=
  raise (.type fault)

theorem violation (violation : Violation) :
    simulation.Agrees (Exec.violation violation : Exec σ α) fun _ =>
      Exec.violation violation :=
  typeError (.trapViolation violation)

theorem outOfFuel :
    simulation.Agrees (Exec.outOfFuel : Exec σ α) fun _ => Exec.outOfFuel :=
  fun _ _ worlds => .error .outOfFuel worlds (.of_forall fun _ => rfl)

theorem ofExcept (result : Except Error α) :
    simulation.Agrees (Exec.ofExcept result) fun _ => Exec.ofExcept result := by
  cases result with
  | ok answer => exact pure answer
  | error error => exact raise error

/-! ### Sequences -/

theorem bind {first : Exec σ α} {second : Nat → Exec τ α} {next : α → Exec σ β}
    {next' : Nat → α → Exec τ β} (start : simulation.Agrees first second)
    (rest : ∀ answer, simulation.Agrees (next answer) fun fuel => next' fuel answer) :
    simulation.Agrees (first >>= next) fun fuel => second fuel >>= next' fuel :=
  fun left right worlds => .bind (start left right worlds) fun answer _ _ _ => rest answer _ _

/-- The rest of a computation has to agree only for answers that there are. -/
theorem bind_ok {first : Exec σ α} {second : Nat → Exec τ α} {next : α → Exec σ β}
    {next' : Nat → α → Exec τ β} (start : simulation.Agrees first second)
    (rest : ∀ answer before after, first before = .ok answer after →
      simulation.Agrees (next answer) fun fuel => next' fuel answer) :
    simulation.Agrees (first >>= next) fun fuel => second fuel >>= next' fuel :=
  fun left right worlds => .bind (start left right worlds) fun answer _ _ ended =>
    rest answer left _ ended _ _

theorem andFinally {first : Exec σ α} {second : Nat → Exec τ α}
    {close : World σ → World σ} {close' : World τ → World τ}
    (start : simulation.Agrees first second)
    (keeps : ∀ world, (close world).client = world.client)
    (closes : ∀ {left right}, simulation.related left right →
      simulation.related (close left) (close' right)) :
    simulation.Agrees (first.andFinally close) fun fuel => (second fuel).andFinally close' := by
  intro left right worlds
  have results := start left right worlds
  unfold Exec.andFinally
  generalize first left = result at results
  cases results with
  | early world allowed results => exact .early _ ((keeps world).symm ▸ allowed) _
  | ok answer worlds' ends =>
      exact .ok answer (closes worlds') (ends.mono fun fuel ended => by simp only [ended])
  | error fault worlds' ends =>
      exact .error fault (closes worlds') (ends.mono fun fuel ended => by simp only [ended])

theorem attempt {first : Exec σ α} {second : Nat → Exec τ α}
    (start : simulation.Agrees first second) :
    simulation.Agrees first.attempt fun fuel => (second fuel).attempt := by
  intro left right worlds
  have results := start left right worlds
  unfold Exec.attempt
  generalize first left = result at results
  cases results with
  | early world allowed results => exact .early world allowed _
  | ok answer worlds' ends =>
      exact .ok _ worlds' (ends.mono fun fuel ended => by simp only [ended])
  | error fault worlds' ends =>
      cases fault with
      | error error => exact .ok _ worlds' (ends.mono fun fuel ended => by simp only [ended])
      | outOfFuel => exact .error _ worlds' (ends.mono fun fuel ended => by simp only [ended])

/-- A machine that is given more fuel follows as well. -/
theorem of_succ {first : Exec σ α} {second : Nat → Exec τ α}
    (start : simulation.Agrees first fun fuel => second (fuel + 1)) :
    simulation.Agrees first second :=
  fun left right worlds => (start left right worlds).of_succ

/-! ### The heap -/

/-- A computation on what is seen of the heap. -/
theorem observing {next : Heap → Exec σ α} {next' : Nat → Heap → Exec τ α}
    (rest : ∀ left right : Heap, left.Resembles simulation.scope.levels right →
      simulation.Agrees (next left) fun fuel => next' fuel right) :
    simulation.Agrees (Exec.heap >>= next) fun fuel => Exec.heap >>= next' fuel :=
  fun left right worlds =>
    rest left.heap right.heap (simulation.alike worlds) left right worlds

/-- A command that is within the scope everywhere. -/
theorem onHeap (command : Command) (within : ∀ heap, command.Within simulation.scope heap) :
    simulation.Agrees (Exec.onHeap command.run) fun _ => Exec.onHeap command.run :=
  fun left _ worlds => .onHeap worlds command (within left.heap) id rfl rfl

/-! ### Frames -/

theorem holding (objects : List ObjectId) {first : Exec σ α} {second : Nat → Exec τ α}
    (start : simulation.Agrees first second) :
    simulation.Agrees (Exec.holding objects first) fun fuel =>
      Exec.holding objects (second fuel) := by
  refine bind (onHeap (.holdAll objects) fun _ => trivial) fun _ => ?_
  exact andFinally start (fun _ => rfl) fun worlds =>
    (simulation.command worlds (.releaseAll objects) trivial).2

end Agrees

/-- A computation in a frame of the proxy follows, if it agrees as the inner simulation says. -/
def Enters (simulation inner : Simulation σ τ) (proxy : ObjectId) (left : World σ)
    (right : World τ) : Prop :=
  ∀ {α : Type} {first : Exec σ α} {second : Nat → Exec τ α}, inner.Agrees first second →
    simulation.Follows (Exec.inProxyFrame proxy first left) fun fuel =>
      Exec.inProxyFrame proxy (second fuel) right

/-- Related worlds are equally deep in frames, with the same limits. -/
structure FramesAlike (simulation : Simulation σ τ) : Prop where
  limit_eq : ∀ {left right}, simulation.related left right → ∀ id,
    (right.heap.config id).maxProxyDepth = (left.heap.config id).maxProxyDepth
  depth_eq : ∀ {left right}, simulation.related left right → right.depth = left.depth
  depth : ∀ {left right}, simulation.related left right →
    ∀ depth, simulation.related { left with depth := depth } { right with depth := depth }

theorem FramesAlike.enters (frames : simulation.FramesAlike) (proxy : ObjectId) {left : World σ}
    {right : World τ} (worlds : simulation.related left right) :
    simulation.Enters simulation proxy left right := by
  intro α first second start
  simp only [Exec.inProxyFrame, frames.limit_eq worlds, frames.depth_eq worlds]
  split
  · refine Agrees.andFinally start ?_ ?_ _ _ (frames.depth worlds (left.depth + 1))
    · exact fun _ => rfl
    · intro left right worlds
      rw [frames.depth_eq worlds]
      exact frames.depth worlds _
  · exact .error _ worlds (.of_forall fun _ => rfl)

end Simulation

end ObjectModel
