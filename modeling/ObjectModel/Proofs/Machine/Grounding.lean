import ObjectModel.Proofs.Machine.Guarding

/-!
Contract: programs that name objects which exist keep every walk along prototypes finite.

A program only ever gets hold of an object once it is made. In this library it names objects
by number, so it could name one before; `Script.grounded` is any script with the requests
refused that would store such a name as a prototype. A heap is reached (`Heap.IsReached`) if
some grounded program, with grounded functions, ends there in whichever way; what a program
passes through is reached by one that stops earlier. Commands lead to all of these heaps
(`Heap.IsReached.reachable`).

Owns: the discipline of grounded programs, whose heaps stay chained.
-/

namespace ObjectModel

variable {σ α : Type}

/-! ### Grounded programs -/

/-- The request names a prototype that exists, and makes no change that was validated
against a made-up description. -/
def Request.isGrounded (heap : Heap) : Request → Bool
  | .call (.setPrototypeOf _ prototype) => prototype.all (· < heap.objects.size)
  | .newObject _ prototype _ => prototype.all (· < heap.objects.size)
  | .newFunction _ prototype _ _ => prototype.all (· < heap.objects.size)
  | .validate (some _) _ _ _ _ => false
  | _ => true

/-- The script with an error in place of every request that is not grounded. -/
def Script.grounded (script : Script σ α) : Script σ α :=
  script.guarded fun heap request => request.isGrounded heap

def Host.grounded (host : Host σ) : Host σ :=
  host.guarded fun heap request => request.isGrounded heap

/-- Some grounded program ends with this heap: with an answer, with an error, or out of
fuel. -/
def Heap.IsReached (heap : Heap) : Prop :=
  ∃ (σ α : Type) (host : Host σ) (script : Script σ α) (config : Config) (fuel : Nat)
    (state : σ), heap =
      (Exec.reached (script.grounded.run host.grounded fuel) ⟨.start config, 0, state⟩).heap

/-! ### Chained heaps -/

/-- Prototypes are among the first objects. -/
def Scope.grounded (count : Nat) : Scope where
  changes _ := True
  prototypes prototype := ∀ id ∈ prototype, id < count
  levels _ := True
  storage := True
  writable := False
  changes_of_not_mixed _ := trivial
  prototypes_none := by simp

theorem Request.within_grounded {heap : Heap} {request : Request}
    (grounded : request.isGrounded heap = true) :
    request.Within (.grounded heap.objects.size) := by
  have names : ∀ {prototype : Option ObjectId},
      prototype.all (· < heap.objects.size) = true → heap.IsPrototype prototype := by
    intro prototype all id member
    obtain rfl := member
    simpa using all
  cases request with
  | call method =>
      cases method with
      | setPrototypeOf id prototype => exact names grounded
      | _ => trivial
  | newObject store prototype isLiteral => exact names grounded
  | newFunction store prototype name code => exact names grounded
  | validate target key extensible change current =>
      cases target with
      | none => trivial
      | some id => contradiction
  | _ => trivial

theorem Heap.Command.namesPrototypes_of_within {heap : Heap} {count : Nat}
    (count_le : count ≤ heap.objects.size) {command : Command}
    (within : command.Within (.grounded count) heap) : command.NamesPrototypes heap := by
  cases command with
  | allocate store kind prototype isLiteral =>
      exact fun id member => Nat.lt_of_lt_of_le (within.1 id member) count_le
  | setPrototypeOf id prototype =>
      exact fun next member => Nat.lt_of_lt_of_le (within.2 next member) count_le
  | _ => trivial

/-- Grounded programs keep walks along prototypes finite. -/
def Discipline.grounded : Discipline where
  admits := fun heap request => request.isGrounded heap
  scope := .grounded
  holds := Heap.Chained
  notWritable := not_false
  within := Request.within_grounded
  wellFormed := Heap.Chained.wellFormed
  command := fun chained count_le command within =>
    command.chained chained (Heap.Command.namesPrototypes_of_within count_le within)

/-- Grounded programs run into chained heaps. -/
theorem Call.run_grounded (host : Host σ) (fuel count : Nat) :
    (Discipline.grounded.simulation σ False count).Dispatches (Call.run host.grounded fuel)
      fun _ => Call.run host.grounded fuel :=
  Discipline.grounded.run_dispatches host fuel count

theorem Heap.chained_start (config : Config) : (Heap.start config).Chained where
  wellFormed := wellFormed_start config
  prototype_lt := fun found => by cases found
  ends := fun start => by
    cases start with
    | none => exact ⟨_, .null⟩
    | some id => exact ⟨_, .ordinary rfl .null⟩

theorem Heap.IsReached.chained {heap : Heap} (reached : heap.IsReached) : heap.Chained := by
  obtain ⟨σ, α, host, script, config, fuel, state, rfl⟩ := reached
  exact Discipline.grounded.run_holds host script fuel (chained_start config)

/-! ### Histories of reached heaps -/

theorem Heap.Reachable.command {heap : Heap} (reachable : heap.Reachable) (command : Command) :
    (command.run heap).1.Reachable := by
  obtain ⟨config, commands, rfl⟩ := reachable
  exact ⟨config, commands ++ [command], (Command.runAll_concat _ commands command).symm⟩

/-- Equal worlds with a heap that commands lead to. -/
def World.reachableSimulation (σ : Type) : Simulation σ σ where
  scope := .all
  early _ := False
  related left right := right = left ∧ left.heap.Reachable
  alike := fun worlds => by
    rw [worlds.1]
    exact .refl _ _
  heap_eq := fun _ _ _ worlds => by rw [worlds.1]
  command := by
    rintro left _ ⟨rfl, reachable⟩ command _
    exact ⟨rfl, rfl, reachable.command command⟩
  applies := False
  validate := False.elim

theorem World.reachable_framesAlike (σ : Type) :
    (World.reachableSimulation σ).FramesAlike where
  limit_eq := fun worlds _ => by rw [worlds.1]
  depth_eq := fun worlds => by rw [worlds.1]
  depth := by
    rintro left _ ⟨rfl, reachable⟩ depth
    exact ⟨rfl, reachable⟩

theorem Request.within_all {heap : Heap} {request : Request}
    (grounded : request.isGrounded heap = true) : request.Within .all := by
  cases request with
  | call method => exact method.within_all
  | validate target key extensible change current =>
      cases target with
      | none => trivial
      | some id => contradiction
  | _ => trivial

theorem Script.grounded_isWithin (script : Script σ α) : script.grounded.IsWithin .all :=
  script.guarded_isWithin Request.within_all trivial

theorem Script.grounded_similar (script : Script σ α) :
    (World.reachableSimulation σ).Similar script.grounded script.grounded := by
  apply Script.IsWithin.similar script.grounded_isWithin
  · rintro left _ ⟨rfl, -⟩
    rfl
  · rintro left _ ⟨rfl, reachable⟩ client
    exact ⟨rfl, reachable⟩

/-- Commands lead to every heap that programs reach. -/
theorem Heap.IsReached.reachable {heap : Heap} (reached : heap.IsReached) : heap.Reachable := by
  obtain ⟨σ, α, host, script, config, fuel, state, rfl⟩ := reached
  have hosts : (World.reachableSimulation σ).SimilarHosts host.grounded host.grounded :=
    fun code this arguments => (host code this arguments).grounded_similar
  have results := Simulation.run_agrees not_false (World.reachable_framesAlike σ) hosts
    script.grounded_similar fuel ⟨.start config, 0, state⟩ _ ⟨rfl, config, [], rfl⟩
  unfold Exec.reached
  generalize script.grounded.run host.grounded fuel ⟨.start config, 0, state⟩ = result at results
  cases results with
  | early world allowed => exact allowed.elim
  | ok answer worlds => exact worlds.2
  | error fault worlds => exact worlds.2

/-! ### Prototypes on reached heaps -/

/-- On every heap that programs reach, walks along prototypes end and visit no object twice.
An ordinary object refuses exactly the prototypes from which links lead to it: it takes a
prototype that it has, or one that it admits while it is extensible, and then no more than
its link changes. -/
theorem Heap.IsReached.prototypes_acyclic {heap : Heap} (reached : heap.IsReached) :
    (∀ start, heap.IsPrototype start → ∃ steps, heap.Chain start steps ∧
      (steps.map ChainStep.id).Nodup ∧ heap.walk start = steps) ∧
    ∀ id, id < heap.objects.size → heap.isExotic id = false →
      ∀ prototype, heap.IsPrototype prototype →
        (heap.admitsPrototype id prototype = false ↔ ∃ first, prototype = some first ∧
          Relation.ReflTransGen heap.Link first id) ∧
        ∀ {σ : Type} (host : Host σ) (fuel depth : Nat) (client : σ), ∃ accepted after,
          Call.run host (fuel + 1) (.setPrototypeOf id prototype) ⟨heap, depth, client⟩ =
            .ok accepted ⟨after, depth, client⟩ ∧
          (accepted = true ↔ heap.prototype id = prototype ∨
            (heap.isExtensible id = true ∧ heap.admitsPrototype id prototype = true)) ∧
          (accepted = false → after = heap) ∧
          (accepted = true → after.SameContent
            { heap with
              objects := heap.objects.setIfInBounds id
                { heap.object id with prototype := prototype } }) := by
  have chained := reached.chained
  refine ⟨fun start isStart => ?_, fun id inRange notExotic prototype isPrototype => ⟨?_, ?_⟩⟩
  · obtain ⟨steps, chain⟩ := chained.ends start
    exact ⟨steps, chain, chain.nodup, chained.walk_eq isStart chain⟩
  · exact chained.admitsPrototype_eq_false_iff notExotic isPrototype
  · intro σ host fuel depth client
    refine ⟨(heap.setPrototypeOf id prototype).2, (heap.setPrototypeOf id prototype).1, ?_,
      heap.setPrototypeOf_accepts_iff id prototype, heap.setPrototypeOf_refused id prototype,
      heap.setPrototypeOf_accepted id prototype⟩
    rw [Call.run, Call.step, Machine.byKind_ordinary notExotic]
    rfl

/-- Makes an object, and one that has the first for its prototype. -/
def nestedPrototypes : Script Unit Unit :=
  .ask (.newObject 0 none false) fun _ =>
  .ask (.newObject 0 (some 0) false) fun _ => .done ()

/-- The first of two objects cannot take the second one for its prototype. -/
theorem Heap.IsReached.prototypes_acyclic_nested :
    let heap := (Exec.reached (nestedPrototypes.grounded.run
      (Host.grounded fun _ _ _ => .done (.ok .undefined)) 1) ⟨.start {}, 0, ()⟩).heap
    heap.IsReached ∧ heap.admitsPrototype 0 (some 1) = false ∧
      heap.admitsPrototype 1 none = true := by
  intro heap
  have reached : heap.IsReached := ⟨Unit, Unit, _, nestedPrototypes, {}, 1, (), rfl⟩
  have inRange : 0 < heap.objects.size := by decide
  have inRange' : 1 < heap.objects.size := by decide
  have notExotic : heap.isExotic 0 = false := by decide
  have notExotic' : heap.isExotic 1 = false := by decide
  have link : heap.Link 1 0 := ⟨notExotic', by decide⟩
  clear_value heap
  have acyclic := reached.prototypes_acyclic.2
  refine ⟨reached, ?_, ?_⟩
  · refine (acyclic 0 inRange notExotic (some 1) ?_).1.mpr ⟨1, rfl, .single link⟩
    rintro _ ⟨rfl⟩
    exact inRange'
  · rw [← Bool.not_eq_false, (acyclic 1 inRange' notExotic' none (by rintro _ ⟨⟩)).1]
    rintro ⟨_, ⟨⟩, _⟩

end ObjectModel
