import ObjectModel.Proofs.Heap.Chain
import ObjectModel.Proofs.Machine.Evolution

/-!
Contract: programs that are refused what is not admitted where they ask for it.

`Script.guarded` is any script with an error in place of the requests that are not admitted. What
is admitted may depend on the objects that there are, which become more in a run. A `Discipline`
therefore has a scope for every number of objects, and something that holds of a heap as long as
all commands are within the scope. Programs that are guarded by it keep what holds
(`Discipline.run_holds`).

Owns: the simulations of guarded programs beside themselves, which other comparisons of runs use
as well. Does not own: what is admitted.
-/

namespace ObjectModel

open Heap (Command)

variable {σ α : Type}

/-! ### Guarded programs -/

/-- The script with an error in place of every request that is not admitted. -/
def Script.guarded (admits : Heap → Request → Bool) : Script σ α → Script σ α
  | .done result => .done result
  | .ask request next =>
      .ask .inspect fun seen =>
        if seen.toOption.any (admits · request) then
          .ask request fun answer => (next answer).guarded admits
        else (next (.error (.thrown .undefined))).guarded admits
  | .look next => .look fun state => (next state).guarded admits
  | .update change next => .update change (next.guarded admits)

def Host.guarded (admits : Heap → Request → Bool) (host : Host σ) : Host σ :=
  fun code this arguments => (host code this arguments).guarded admits

/-- The guard looks at the heap in which the request is made. -/
theorem Script.exec_guarded_ask (admits : Heap → Request → Bool) (dispatch : Dispatch σ)
    (request : Request) (next : Except Error request.Answer → Script σ α) (world : World σ) :
    ((Script.ask request next).guarded admits).exec (Request.perform dispatch) world =
      (if admits world.heap request then
        Script.ask request fun answer => (next answer).guarded admits
      else (next (.error (.thrown .undefined))).guarded admits).exec (Request.perform dispatch)
        world :=
  rfl

/-- What is admitted is all that a guarded script asks for, but for the heap. -/
theorem Script.guarded_isWithin {admits : Heap → Request → Bool} {scope : Scope}
    (within : ∀ {heap request}, admits heap request = true → request.Within scope)
    (inspects : scope.storage) (script : Script σ α) :
    (script.guarded admits).IsWithin scope := by
  induction script with
  | done result => exact .done result
  | ask request next inductionHypothesis =>
      have seen : Request.inspect.Within scope := inspects
      refine .ask .inspect seen fun heap => ?_
      split
      · rename_i admitted
        obtain ⟨_, -, admitted⟩ := (Option.any_eq_true _ _).mp admitted
        exact .ask request (within admitted) inductionHypothesis
      · exact inductionHypothesis _
  | look next inductionHypothesis => exact .look inductionHypothesis
  | update change next inductionHypothesis => exact .update change inductionHypothesis

section Twice

variable {inner outer : Heap → Request → Bool}
  (wider : ∀ heap request, inner heap request = true → outer heap request = true)
  (inspects : ∀ heap, outer heap .inspect = true)

include wider inspects

/-- A wider guard around a guarded script refuses nothing. -/
theorem Script.exec_guarded_guarded (dispatch : Dispatch σ) (script : Script σ α) :
    ((script.guarded inner).guarded outer).exec (Request.perform dispatch) =
      (script.guarded inner).exec (Request.perform dispatch) := by
  induction script with
  | done result => rfl
  | ask request next inductionHypothesis =>
      funext world
      rw [exec_guarded_ask, Script.guarded, exec_guarded_ask, if_pos (inspects world.heap)]
      show (Script.guarded outer (if inner world.heap request then _ else _)).exec _ world = _
      cases admitted : inner world.heap request with
      | true =>
          simp only [if_true]
          rw [exec_guarded_ask, if_pos (wider _ _ admitted)]
          simp only [Script.exec, inductionHypothesis]
      | false =>
          simp only [Bool.false_eq_true, if_false, inductionHypothesis]
  | look next inductionHypothesis =>
      funext world
      exact congrFun (inductionHypothesis world.client) world
  | update change next inductionHypothesis =>
      funext world
      exact congrFun inductionHypothesis { world with client := change world.client }

theorem Call.run_guarded_guarded (host : Host σ) (fuel : Nat) :
    Call.run ((host.guarded inner).guarded outer) fuel = Call.run (host.guarded inner) fuel := by
  induction fuel with
  | zero => rfl
  | succ fuel inductionHypothesis =>
      funext method
      rw [Call.run, Call.run, inductionHypothesis]
      cases method with
      | call id this arguments =>
          have sameCode : ∀ code, (((host.guarded inner).guarded outer) code this arguments).exec
              (Request.perform (Call.run (host.guarded inner) fuel)) =
                ((host.guarded inner) code this arguments).exec
                  (Request.perform (Call.run (host.guarded inner) fuel)) :=
            fun code => Script.exec_guarded_guarded wider inspects _ (host code this arguments)
          simp only [Call.step, Machine.callObject, sameCode]
      | _ => rfl

end Twice

/-! ### Disciplines -/

/-- What is admitted to programs, and what stays true of the heap for that. -/
structure Discipline where
  admits : Heap → Request → Bool
  /-- What may be asked for where there are this many objects. -/
  scope : (count : Nat) → Scope
  holds : Heap → Prop
  /-- Values may be written anywhere. -/
  notWritable : ∀ {count}, ¬(scope count).writable
  within : ∀ {heap request}, admits heap request = true →
    request.Within (scope heap.objects.size)
  wellFormed : ∀ {heap}, holds heap → heap.WellFormed
  command : ∀ {heap count}, holds heap → count ≤ heap.objects.size →
    ∀ command : Command, command.Within (scope count) heap → holds (command.run heap).1

namespace Discipline

/-- Equal worlds with a heap of the discipline that has some objects at least. -/
structure Relates (discipline : Discipline) (count : Nat) (left right : World σ) : Prop where
  same : right = left
  held : discipline.holds left.heap
  count_le : count ≤ left.heap.objects.size

def simulation (discipline : Discipline) (σ : Type) (early : Prop) (count : Nat) :
    Simulation σ σ where
  scope := discipline.scope count
  early _ := early
  related := discipline.Relates count
  alike := fun worlds => by
    rw [worlds.same]
    exact .refl _ _
  heap_eq := fun _ _ _ worlds => by rw [worlds.same]
  command := by
    rintro left _ ⟨rfl, held, count_le⟩ command within
    refine ⟨rfl, rfl, discipline.command held count_le command within, ?_⟩
    exact Nat.le_trans count_le (command.size_le (discipline.wellFormed held))
  applies := False
  validate := False.elim

variable {discipline : Discipline} {early : Prop}

theorem framesAlike (discipline : Discipline) (σ : Type) (early : Prop) (count : Nat) :
    (discipline.simulation σ early count).FramesAlike where
  limit_eq := fun worlds _ => by rw [worlds.same]
  depth_eq := fun worlds => by rw [worlds.same]
  depth := by
    rintro left _ ⟨rfl, held, count_le⟩ depth
    exact ⟨rfl, held, count_le⟩

/-- Worlds with many objects are worlds with some. -/
theorem Relates.mono {count count' : Nat} (le : count ≤ count') {left right : World σ}
    (worlds : discipline.Relates count' left right) : discipline.Relates count left right :=
  { worlds with count_le := Nat.le_trans le worlds.count_le }

theorem follows_mono {count count' : Nat} (le : count ≤ count')
    {result : EStateM.Result Fault (World σ) α}
    {results : Nat → EStateM.Result Fault (World σ) α}
    (follows : (discipline.simulation σ early count').Follows result results) :
    (discipline.simulation σ early count).Follows result results := by
  cases follows with
  | early world allowed =>
      have allowed : (discipline.simulation σ early count).early world.client := allowed
      exact .early world allowed _
  | ok answer worlds ends => exact .ok answer (worlds.mono le) ends
  | error fault worlds ends => exact .error fault (worlds.mono le) ends

/-- A guarded script agrees with itself. The objects that its requests may name become more
on the way, so the machines have to agree whatever their number is. -/
theorem script_agrees {first : Dispatch σ} {second : Nat → Dispatch σ}
    (dispatches : ∀ count, (discipline.simulation σ early count).Dispatches first second)
    (script : Script σ α) (count : Nat) :
    (discipline.simulation σ early count).Agrees
      ((script.guarded discipline.admits).exec (Request.perform first)) fun fuel =>
        (script.guarded discipline.admits).exec (Request.perform (second fuel)) := by
  induction script with
  | done result => exact .pure result
  | ask request next inductionHypothesis =>
      rintro _ world ⟨rfl, held, count_le⟩
      simp only [Script.exec_guarded_ask]
      split
      · rename_i admitted
        -- the request is right for all objects that there are now
        have performed := Simulation.Agrees.attempt
          ((dispatches world.heap.objects.size).perform_agrees
            (Simulation.admits_of_within (discipline.within admitted))) world world
              ⟨rfl, held, Nat.le_refl _⟩
        exact .bind (follows_mono count_le performed) fun answer left right _ worlds =>
          inductionHypothesis answer left right worlds
      · exact inductionHypothesis _ world world ⟨rfl, held, count_le⟩
  | look next inductionHypothesis =>
      rintro _ world ⟨rfl, held, count_le⟩
      exact inductionHypothesis world.client world world ⟨rfl, held, count_le⟩
  | update change next inductionHypothesis =>
      rintro _ world ⟨rfl, held, count_le⟩
      exact inductionHypothesis { world with client := change world.client } _
        ⟨rfl, held, count_le⟩

theorem run_dispatches (discipline : Discipline) (host : Host σ) (fuel count : Nat) :
    (discipline.simulation σ False count).Dispatches
      (Call.run (host.guarded discipline.admits) fuel) fun _ =>
        Call.run (host.guarded discipline.admits) fuel := by
  induction fuel generalizing count with
  | zero => exact ⟨fun _ _ => .outOfFuel, fun writable => absurd writable discipline.notWritable⟩
  | succ fuel inductionHypothesis =>
      exact ⟨fun _ within => (inductionHypothesis count).step_agrees
        (discipline.framesAlike σ False count) (fun code this arguments =>
          script_agrees inductionHypothesis (host code this arguments) count) within,
        fun writable => absurd writable discipline.notWritable⟩

/-- Guarded programs keep what the discipline keeps, wherever they end. -/
theorem run_holds (discipline : Discipline) (host : Host σ) (script : Script σ α) (fuel : Nat)
    {world : World σ} (held : discipline.holds world.heap) :
    discipline.holds (Exec.reached ((script.guarded discipline.admits).run
      (host.guarded discipline.admits) fuel) world).heap := by
  have results := script_agrees (discipline.run_dispatches host fuel) script 0 world world
    ⟨rfl, held, Nat.zero_le _⟩
  unfold Script.run Exec.reached
  generalize (script.guarded discipline.admits).exec
    (Request.perform (Call.run (host.guarded discipline.admits) fuel)) world = result at results
  cases results with
  | early world allowed => exact allowed.elim
  | ok answer worlds => exact worlds.held
  | error fault worlds => exact worlds.held

end Discipline

end ObjectModel
