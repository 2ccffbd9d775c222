import ObjectModel.Proofs.Heap.Callable
import ObjectModel.Proofs.Machine.Moments

/-!
Contract: programs that make proxies of objects which exist build their heaps.

A grounded program may still name an object as a target or as a handler before it is made, which
a program cannot do that only gets hold of an object once it is made. `Script.linked` is any script
with these requests refused as well. Linked programs are grounded (`Heap.IsLinked.isReached`), and
end in heaps that are built (`Heap.IsLinked.isBuilt`). All targets exist there, so that nothing
changes what can be called (`Script.linked_isCallable`).
-/

namespace ObjectModel

variable {σ α : Type}

/-! ### Linked programs -/

/-- A new proxy gets a target and a handler that exist. -/
def Request.hasTargets (heap : Heap) : Request → Bool
  | .newProxy _ target handler => target < heap.objects.size && handler < heap.objects.size
  | _ => true

def Request.isLinked (heap : Heap) (request : Request) : Bool :=
  request.isGrounded heap && request.hasTargets heap

/-- The script with an error in place of every request that is not linked. -/
def Script.linked (script : Script σ α) : Script σ α :=
  script.guarded fun heap request => request.isLinked heap

def Host.linked (host : Host σ) : Host σ :=
  host.guarded fun heap request => request.isLinked heap

theorem Request.isLinked_iff {heap : Heap} {request : Request} :
    request.isLinked heap = true ↔
      request.isGrounded heap = true ∧ request.hasTargets heap = true := by
  rw [isLinked, Bool.and_eq_true]

theorem Script.linked_isWithin (script : Script σ α) : script.linked.IsWithin .all :=
  script.guarded_isWithin (fun isLinked =>
    Request.within_all (Request.isLinked_iff.mp isLinked).1) trivial

/-- Some linked program ends with this heap: with an answer, with an error, or out of fuel. -/
def Heap.IsLinked (heap : Heap) : Prop :=
  ∃ (σ α : Type) (host : Host σ) (script : Script σ α) (config : Config) (fuel : Nat)
    (state : σ), heap =
      (Exec.reached (script.linked.run host.linked fuel) ⟨.start config, 0, state⟩).heap

/-- What is linked is grounded already. -/
theorem Script.run_grounded_linked (host : Host σ) (script : Script σ α) (fuel : Nat) :
    script.linked.grounded.run host.linked.grounded fuel = script.linked.run host.linked fuel := by
  have wider : ∀ (heap : Heap) (request : Request), request.isLinked heap = true →
      request.isGrounded heap = true := fun _ _ isLinked => (Request.isLinked_iff.mp isLinked).1
  have sameRuns : Call.run host.linked.grounded fuel = Call.run host.linked fuel :=
    Call.run_guarded_guarded wider (fun _ => rfl) host fuel
  rw [Script.run, Script.run, sameRuns]
  exact Script.exec_guarded_guarded wider (fun _ => rfl) _ script

theorem Heap.IsLinked.isReached {heap : Heap} (linked : heap.IsLinked) : heap.IsReached := by
  obtain ⟨σ, α, host, script, config, fuel, state, rfl⟩ := linked
  refine ⟨σ, α, host.linked, script.linked, config, fuel, state, ?_⟩
  rw [Script.run_grounded_linked]

/-! ### Built heaps -/

/-- Prototypes, targets and handlers are among the first objects. -/
def Scope.linked (count : Nat) : Scope :=
  { Scope.grounded count with references := (· < count) }

theorem Request.within_linked {heap : Heap} {request : Request}
    (isLinked : request.isLinked heap = true) :
    request.Within (.linked heap.objects.size) := by
  obtain ⟨isGrounded, hasTargets⟩ := isLinked_iff.mp isLinked
  have within := within_grounded isGrounded
  cases request with
  | newProxy store target handler =>
      rw [Request.hasTargets, Bool.and_eq_true, decide_eq_true_eq, decide_eq_true_eq] at hasTargets
      exact hasTargets
  | call method => cases method <;> exact within
  | validate target key extensible change current => cases target <;> exact within
  | _ => exact within

theorem Heap.Command.namesObjects_of_within {heap : Heap} {count : Nat}
    (count_le : count ≤ heap.objects.size) {command : Command}
    (within : command.Within (.linked count) heap) : command.NamesObjects heap := by
  cases command with
  | allocate store kind prototype isLiteral =>
      exact ⟨fun id member => Nat.lt_of_lt_of_le (within.1 id member) count_le,
        fun id member => Nat.lt_of_lt_of_le (within.2.1 id member) count_le⟩
  | setPrototypeOf id prototype =>
      exact fun next member => Nat.lt_of_lt_of_le (within.2 next member) count_le
  | _ => trivial

/-- Linked programs build their heaps. -/
def Discipline.linked : Discipline where
  admits := fun heap request => request.isLinked heap
  scope := .linked
  holds := Heap.IsBuilt
  notWritable := not_false
  within := Request.within_linked
  wellFormed := fun built => built.chained.wellFormed
  command := fun built count_le command within =>
    .take built command (Heap.Command.namesObjects_of_within count_le within)

/-- From a heap that is built, a linked program ends in one. -/
theorem Script.linked_isBuilt (host : Host σ) (script : Script σ α) (fuel : Nat)
    {world : World σ} (built : world.heap.IsBuilt) :
    (Exec.reached (script.linked.run host.linked fuel) world).heap.IsBuilt :=
  Discipline.linked.run_holds host script fuel built

theorem Heap.IsLinked.isBuilt {heap : Heap} (linked : heap.IsLinked) : heap.IsBuilt := by
  obtain ⟨σ, α, host, script, config, fuel, state, rfl⟩ := linked
  exact script.linked_isBuilt host fuel (.start config)

/-! ### What can be called -/

/-- At every moment of a linked program that starts on a heap that is built, proxies are younger than
their targets. They are so at the end, and no proxy gets another target on the way. -/
theorem Script.linked_targetsFirst (host : Host σ) (script : Script σ α) (fuel : Nat)
    {world : World σ} (built : world.heap.IsBuilt) {heap : Heap}
    (inOrder : (script.linked.moments host.linked fuel world).Pairwise Heap.Becomes)
    (member : heap ∈ script.linked.moments host.linked fuel world) :
    heap.WellFormed ∧ heap.TargetsFirst := by
  have wellFormed := (Script.becomes_moment inOrder member).wellFormed built.chained.wellFormed
  have lastBuilt := script.linked_isBuilt host fuel built
  refine ⟨wellFormed, ?_⟩
  rcases List.mem_append.mp member with earlier | isLast
  · have becomes := (List.pairwise_append.mp inOrder).2.2 heap earlier _ List.mem_cons_self
    exact becomes.targetsFirst wellFormed lastBuilt.targetsFirst
  · rw [List.mem_singleton.mp isLast]
    exact lastBuilt.targetsFirst

/-- Over the moments of a linked program that starts on a heap that is built, an object that exists
can be called later exactly if it can be called now. -/
theorem Script.linked_isCallable (host : Host σ) (script : Script σ α) (fuel : Nat)
    {world : World σ} (built : world.heap.IsBuilt) :
    (script.linked.moments host.linked fuel world).Pairwise fun before after =>
      ∀ id, id < before.objects.size → after.isCallable id = before.isCallable id := by
  obtain ⟨-, inOrder⟩ := Script.moments_become
    (fun code this arguments => (host code this arguments).linked_isWithin)
    script.linked_isWithin fuel world
  refine inOrder.imp_of_mem fun member _ becomes id inRange => ?_
  obtain ⟨wellFormed, first⟩ := script.linked_targetsFirst host fuel built inOrder member
  exact becomes.isCallable_eq wellFormed (first.targetsExist inRange)

end ObjectModel
