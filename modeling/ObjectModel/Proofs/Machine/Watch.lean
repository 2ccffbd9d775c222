import ObjectModel.Proofs.Heap.Limits
import ObjectModel.Proofs.Machine.Annotation
import ObjectModel.Proofs.Machine.Evolution

/-!
Contract: runs that are watched, and runs with more room.

`Call.runWatched` is `Call.run` under watch: it stops where a method starts at a moment that is
not as expected, and leaves the moment behind. A run that is never stopped is the run itself
(`Call.runWatched_eq`), so something holds throughout a run if the watch for it never stops the
run (`Call.Throughout`).

`World.Shadows` relates a watched world to one that is less deep in frames, with more room below
the limits or with the same heap. As long as the watched run is not stopped, the other run does
the same (`Call.watched_dispatches`).

Does not own: what is watched for.
-/

namespace ObjectModel

variable {σ τ α : Type}

/-! ### Moments -/

/-- What a method starts with. -/
structure Moment where
  method : Call
  heap : Heap
  depth : Nat

/-- The nesting limit of the proxy that the method belongs to, if it runs in a frame. -/
def Moment.limit? (moment : Moment) : Option Nat :=
  (moment.method.framed?.filter moment.heap.isExotic).map fun id =>
    (moment.heap.config id).maxProxyDepth

/-- The method finds no frame that it could enter. -/
def Moment.isRefused (moment : Moment) : Bool :=
  moment.limit?.any (· ≤ moment.depth)

theorem Moment.limit?_eq {moment : Moment} {id : ObjectId}
    (framed : moment.method.framed? = some id) (isExotic : moment.heap.isExotic id = true) :
    moment.limit? = some (moment.heap.config id).maxProxyDepth := by
  rw [limit?, framed, Option.filter_some, if_pos isExotic]
  rfl

/-! ### Watched runs -/

/-- The world beside a watch that has not stopped anything. -/
def World.watched (world : World σ) : World (σ × Option Moment) where
  heap := world.heap
  depth := world.depth
  client := (world.client, none)

def World.unwatched (world : World (σ × Option Moment)) : World σ where
  heap := world.heap
  depth := world.depth
  client := world.client.1

namespace Exec

def unwatched :
    EStateM.Result Fault (World (σ × Option Moment)) α → EStateM.Result Fault (World σ) α
  | .ok answer world => .ok answer world.unwatched
  | .error fault world => .error fault world.unwatched

/-- The method is taken if the moment is as expected. -/
def watched (expected : Moment → Bool) (method : Call)
    (computation : Exec (σ × Option Moment) method.Answer) :
    Exec (σ × Option Moment) method.Answer := fun world =>
  let moment : Moment := ⟨method, world.heap, world.depth⟩
  if expected moment then computation world
  else .error .outOfFuel { world with client := (world.client.1, some moment) }

/-- The watch stops the computation nowhere. -/
def Unstopped (computation : Exec (σ × Option Moment) α) (world : World σ) : Prop :=
  (reached computation world.watched).client.2 = none

end Exec

def Call.runWatched (expected : Moment → Bool) (host : Host σ) :
    (fuel : Nat) → Dispatch (σ × Option Moment)
  | 0, _ => Exec.outOfFuel
  | fuel + 1, method =>
      Exec.watched expected method
        (Call.step (host.beside (Option Moment)) (Call.runWatched expected host fuel) method)

def Script.runWatched (expected : Moment → Bool) (host : Host σ) (fuel : Nat)
    (script : Script σ α) : Exec (σ × Option Moment) α :=
  (script.beside (Option Moment)).exec (Request.perform (Call.runWatched expected host fuel))

/-- Every method that the run takes, at whatever depth, starts at a moment as expected. -/
def Call.Throughout (expected : Moment → Bool) (host : Host σ) (fuel : Nat) (method : Call)
    (world : World σ) : Prop :=
  (Call.runWatched expected host fuel method).Unstopped world

def Script.Throughout (expected : Moment → Bool) (host : Host σ) (fuel : Nat)
    (script : Script σ α) (world : World σ) : Prop :=
  (script.runWatched expected host fuel).Unstopped world

instance (expected : Moment → Bool) (host : Host σ) (fuel : Nat) (method : Call)
    (world : World σ) : Decidable (method.Throughout expected host fuel world) :=
  inferInstanceAs (Decidable
    ((Exec.reached (Call.runWatched expected host fuel method) world.watched).client.2 = none))

instance (expected : Moment → Bool) (host : Host σ) (fuel : Nat) (script : Script σ α)
    (world : World σ) : Decidable (script.Throughout expected host fuel world) :=
  inferInstanceAs (Decidable
    ((Exec.reached (script.runWatched expected host fuel) world.watched).client.2 = none))

/-! ### Shadows -/

/-- A watched world, and one that is at `depth`, by `room` frames less deep than the first. -/
structure World.Shadows (room : Nat) (exact : Prop) (view : τ → σ × Option Moment) (depth : Nat)
    (left : World (σ × Option Moment)) (right : World τ) : Prop where
  heap : left.heap.Roomier room right.heap
  heap_eq : exact → right.heap = left.heap
  left_depth : left.depth = depth + room
  right_depth : right.depth = depth
  client_eq : left.client = view right.client

/-- Programs may ask for everything, but look at shapes and at the whole heap only where that is
the same on both sides. -/
def Scope.seeing (storage : Prop) : Scope where
  changes _ := True
  prototypes _ := True
  levels _ := True
  storage := storage
  writable := False
  changes_of_not_mixed _ := trivial
  prototypes_none := trivial

theorem Call.within_seeing {storage : Prop} (method : Call) : method.Within (.seeing storage) := by
  cases method <;> trivial

/-- The simulation by shadows, where the watch stops the run at all or not. -/
def World.shadowSimulation (stops : Prop) (room : Nat) (exact : Prop)
    (view : τ → σ × Option Moment) (depth : Nat) : Simulation (σ × Option Moment) τ where
  scope := .seeing exact
  early client := stops ∧ client.2 ≠ none
  related := World.Shadows room exact view depth
  alike := fun worlds => worlds.heap.resembles _
  heap_eq := fun isExact _ _ worlds => worlds.heap_eq isExact
  command := fun worlds command _ =>
    have stepped := worlds.heap.command command
    ⟨stepped.1, { worlds with
      heap := stepped.2
      heap_eq := fun isExact => by rw [worlds.heap_eq isExact] }⟩
  applies := True
  validate := fun _ _ _ worlds id key extensible change current =>
    have stepped := worlds.heap.step
      (fun heap => heap.validateAndApply (some id) key extensible change current)
      fun heap limits => heap.validateAndApply_withLimits limits _ _ _ _ _
    ⟨stepped.1, { worlds with
      heap := stepped.2
      heap_eq := fun isExact => by rw [worlds.heap_eq isExact] }⟩

variable {stops : Prop} {room : Nat} {exact : Prop} {view : τ → σ × Option Moment} {depth : Nat}
  {left : World (σ × Option Moment)} {right : World τ}

/-- Where both worlds enter a frame, or neither of them, what is done in it is done one frame
deeper. -/
theorem World.Shadows.enters (worlds : Shadows room exact view depth left right) {id : ObjectId}
    (refused : (left.heap.config id).maxProxyDepth ≤ left.depth →
      (right.heap.config id).maxProxyDepth ≤ right.depth) :
    (World.shadowSimulation stops room exact view depth).Enters
      (World.shadowSimulation stops room exact view (depth + 1)) id left right := by
  intro α first second start
  have limit_le := worlds.heap.maxProxyDepth_le id
  unfold Exec.inProxyFrame
  by_cases isEntered : left.depth < (left.heap.config id).maxProxyDepth
  · have isEntered' : right.depth < (right.heap.config id).maxProxyDepth := by
      have := worlds.left_depth
      have := worlds.right_depth
      omega
    have deeper : Shadows room exact view (depth + 1) { left with depth := left.depth + 1 }
        { right with depth := right.depth + 1 } :=
      { worlds with
        left_depth := by simp only [worlds.left_depth]; omega
        right_depth := by simp only [worlds.right_depth] }
    have results := start _ _ deeper
    rw [if_pos isEntered]
    simp only [if_pos isEntered', Exec.andFinally]
    have closes : ∀ {left' : World (σ × Option Moment)} {right' : World τ},
        Shadows room exact view (depth + 1) left' right' →
          Shadows room exact view depth { left' with depth := left'.depth - 1 }
            { right' with depth := right'.depth - 1 } := fun worlds' =>
      { worlds' with
        left_depth := by simp only [worlds'.left_depth]; omega
        right_depth := by simp only [worlds'.right_depth]; omega }
    generalize first { left with depth := left.depth + 1 } = result at results
    cases results with
    | early world allowed =>
        have allowed : (shadowSimulation stops room exact view depth).early world.client := allowed
        exact .early { world with depth := world.depth - 1 } allowed _
    | ok answer worlds' ends =>
        exact .ok answer (closes worlds') (ends.mono fun fuel ended => by simp only [ended])
    | error fault worlds' ends =>
        exact .error fault (closes worlds') (ends.mono fun fuel ended => by simp only [ended])
  · have isRefused' : ¬ right.depth < (right.heap.config id).maxProxyDepth :=
      Nat.not_lt.mpr (refused (Nat.not_lt.mp isEntered))
    rw [if_neg isEntered]
    simp only [if_neg isRefused']
    exact .error _ worlds (.of_forall fun _ => rfl)

/-- The watched run, as long as it is not stopped, and a run in the shadow of it. The depths at
which they are to be compared are `valid` as far as the watch sees to it, which also has to see
to it that both enter the same frames. -/
theorem Call.watched_dispatches {expected : Moment → Bool} {host : Host σ} {host' : Host τ}
    {second : Nat → Dispatch τ} (valid : Nat → Prop)
    (hosts : ∀ depth, (World.shadowSimulation stops room exact view depth).SimilarHosts
      (host.beside (Option Moment)) host')
    (starts : ∀ method, second 0 method = Exec.outOfFuel)
    (steps : ∀ {depth left right}, valid depth →
      World.Shadows room exact view depth left right → ∀ fuel method,
        expected ⟨method, left.heap, left.depth⟩ = true →
          second (fuel + 1) method right = Call.step host' (second fuel) method right)
    (frames : ∀ {depth left right}, valid depth →
      World.Shadows room exact view depth left right → ∀ method id,
        expected ⟨method, left.heap, left.depth⟩ = true → method.framed? = some id →
          left.heap.isExotic id = true →
            (left.depth < (left.heap.config id).maxProxyDepth → valid (depth + 1)) ∧
            ((left.heap.config id).maxProxyDepth ≤ left.depth →
              (right.heap.config id).maxProxyDepth ≤ right.depth))
    (early : ∀ moment, expected moment = false → stops) (fuel : Nat) (isValid : valid depth) :
    (World.shadowSimulation stops room exact view depth).Dispatches
      (Call.runWatched expected host fuel) fun _ => second fuel := by
  induction fuel generalizing depth with
  | zero =>
      refine ⟨fun method _ => ?_, False.elim⟩
      simp only [starts]
      exact .outOfFuel
  | succ fuel inductionHypothesis =>
      refine ⟨fun method _ left right worlds => ?_, False.elim⟩
      show (World.shadowSimulation stops room exact view depth).Follows
        (Exec.watched expected method _ left) _
      unfold Exec.watched
      simp only
      split
      · rename_i isExpected
        simp only [steps isValid worlds fuel method isExpected]
        have dispatches := inductionHypothesis isValid
        have calls : ∀ id this arguments, method = .call id this arguments →
            (World.shadowSimulation stops room exact view depth).Agrees
              (Machine.callObject (host.beside (Option Moment))
                (Call.runWatched expected host fuel) id this arguments)
              fun _ => Machine.callObject host' (second fuel) id this arguments :=
          fun id this arguments _ =>
            dispatches.callObject_agrees (dispatches.codeAgrees (hosts depth)) id this arguments
        have within : ∀ depth, method.Within
            (World.shadowSimulation stops room exact view depth).scope :=
          fun _ => method.within_seeing
        by_cases goesDeeper : valid (depth + 1)
        · refine dispatches.step_follows (inductionHypothesis goesDeeper) (within _) (within _)
            calls worlds fun id framed isExotic => worlds.enters ?_
          exact (frames isValid worlds method id isExpected framed isExotic).2
        · -- no frame is entered
          refine dispatches.step_follows dispatches (within _) (within _) calls worlds
            fun id framed isExotic => ?_
          obtain ⟨entered, refused⟩ := frames isValid worlds method id isExpected framed isExotic
          have isRefused : (left.heap.config id).maxProxyDepth ≤ left.depth :=
            Nat.not_lt.mp fun isEntered => goesDeeper (entered isEntered)
          intro α first second _
          simp only [Exec.inProxyFrame, if_neg (Nat.not_lt.mpr isRefused),
            if_neg (Nat.not_lt.mpr (refused isRefused))]
          exact .error _ worlds (.of_forall fun _ => rfl)
      · rename_i notExpected
        have isStopped := early _ (Bool.eq_false_iff.mpr notExpected)
        exact .early _ (And.intro isStopped (Option.some_ne_none _)) _

theorem World.admits_of_exact (isExact : exact) (request : Request) :
    (shadowSimulation stops room exact view depth).Admits request := by
  cases request with
  | validate target key extensible change current => cases target <;> trivial
  | call method => exact method.within_seeing
  | transition store shape step => exact isExact
  | holdShape shape => exact isExact
  | releaseShape shape => exact isExact
  | inspect => exact isExact
  | _ => trivial

/-- Annotated scripts run in the shadow of those without notes. -/
theorem Script.Annotates.shadows {allowed : Request → Prop}
    (admits : ∀ request, allowed request →
      (World.shadowSimulation stops room exact view depth).Admits request)
    {script : Script (σ × Option Moment) α} {script' : Script τ α}
    (annotates : Script.Annotates allowed view script script') :
    (World.shadowSimulation stops room exact view depth).Similar script script' :=
  annotates.similar admits World.Shadows.client_eq fun worlds _ _ same =>
    { worlds with client_eq := same.symm }

/-- What is not stopped ends as its shadow does. -/
theorem Exec.matches_of_unstopped {first : Exec (σ × Option Moment) α} {second : Exec τ α}
    (agrees : (World.shadowSimulation stops room exact view depth).Agrees first fun _ => second)
    (worlds : World.Shadows room exact view depth left right)
    (unstopped : stops → (Exec.reached first left).client.2 = none) :
    Matches (World.Shadows room exact view depth) (first left) (second right) := by
  have results : (World.shadowSimulation stops room exact view depth).Follows (first left)
      fun _ => second right := agrees left right worlds
  unfold Exec.reached at unstopped
  generalize first left = result, second right = result' at results unstopped
  cases results with
  | early world allowed => exact absurd (unstopped allowed.1) allowed.2
  | ok answer worlds' ends =>
      obtain rfl := Filter.eventually_const.mp ends
      exact .ok answer worlds'
  | error fault worlds' ends =>
      obtain rfl := Filter.eventually_const.mp ends
      exact .error fault worlds'

/-- What ends alike has its notes in common. -/
theorem Exec.client_eq_of_matches {first : Exec (σ × Option Moment) α} {second : Exec τ α}
    (results : Matches (World.Shadows room exact view depth) (first left) (second right)) :
    (Exec.reached first left).client = view (Exec.reached second right).client := by
  unfold Exec.reached
  generalize first left = result, second right = result' at results
  cases results with
  | ok answer worlds => exact worlds.client_eq
  | error fault worlds => exact worlds.client_eq

/-! ### A run and its watch -/

/-- The simulation of a watched run by the run. -/
abbrev World.watchSimulation (σ : Type) (stops : Prop) (depth : Nat) :
    Simulation (σ × Option Moment) σ :=
  shadowSimulation stops 0 True (fun state => (state, none)) depth

theorem World.watched_shadows (world : World σ) :
    World.Shadows 0 True (fun state => (state, none)) world.depth world.watched world where
  heap := .refl 0 world.heap
  heap_eq := fun _ => rfl
  left_depth := rfl
  right_depth := rfl
  client_eq := rfl

theorem Call.runWatched_dispatches {expected : Moment → Bool}
    (early : ∀ moment, expected moment = false → stops) (host : Host σ) (fuel depth : Nat) :
    (World.watchSimulation σ stops depth).Dispatches (Call.runWatched expected host fuel)
      fun _ => Call.run host fuel := by
  refine Call.watched_dispatches (fun _ => True) (fun depth code this arguments => ?_)
    (fun _ => rfl) (fun _ _ _ _ _ => rfl)
    (fun _ worlds _ id _ _ _ => ⟨fun _ => trivial, fun refused => ?_⟩) early fuel trivial
  · exact (Script.Annotates.of_beside (host code this arguments).asks_any none).shadows
      fun request _ => World.admits_of_exact trivial request
  · rw [worlds.heap_eq trivial, worlds.right_depth]
    rwa [worlds.left_depth] at refused

theorem Script.runWatched_agrees {expected : Moment → Bool}
    (early : ∀ moment, expected moment = false → stops) (host : Host σ) (fuel depth : Nat)
    (script : Script σ α) :
    (World.watchSimulation σ stops depth).Agrees (script.runWatched expected host fuel)
      fun _ => script.run host fuel :=
  (Call.runWatched_dispatches early host fuel depth).exec_agrees
    ((Script.Annotates.of_beside script.asks_any none).shadows fun request _ =>
      World.admits_of_exact trivial request)

/-- Under a watch that does not stop it, a computation is what it is without. -/
theorem Exec.unwatched_eq {watched : Exec (σ × Option Moment) α} {plain : Exec σ α}
    {world : World σ}
    (agrees : (World.watchSimulation σ True world.depth).Agrees watched fun _ => plain)
    (unstopped : watched.Unstopped world) :
    unwatched (watched world.watched) = plain world := by
  have results := Exec.matches_of_unstopped agrees world.watched_shadows fun _ => unstopped
  have worldEq : ∀ {left : World (σ × Option Moment)} {right : World σ},
      World.Shadows 0 True (fun state => (state, none)) world.depth left right →
        left.unwatched = right := by
    intro left right worlds
    rw [World.unwatched, ← worlds.heap_eq trivial, worlds.left_depth, worlds.client_eq]
    exact congrArg (World.mk right.heap · right.client) worlds.right_depth.symm
  generalize watched world.watched = result, plain world = result' at results
  cases results with
  | ok answer worlds => exact congrArg (EStateM.Result.ok answer) (worldEq worlds)
  | error fault worlds => exact congrArg (EStateM.Result.error fault) (worldEq worlds)

theorem Call.runWatched_eq {expected : Moment → Bool} {host : Host σ} {fuel : Nat}
    {method : Call} {world : World σ} (throughout : method.Throughout expected host fuel world) :
    Exec.unwatched (Call.runWatched expected host fuel method world.watched) =
      Call.run host fuel method world :=
  Exec.unwatched_eq ((Call.runWatched_dispatches (fun _ _ => trivial) host fuel _).method method
    method.within_seeing) throughout

theorem Script.runWatched_eq {expected : Moment → Bool} {host : Host σ} {fuel : Nat}
    {script : Script σ α} {world : World σ}
    (throughout : script.Throughout expected host fuel world) :
    Exec.unwatched (script.runWatched expected host fuel world.watched) =
      script.run host fuel world :=
  Exec.unwatched_eq (script.runWatched_agrees (fun _ _ => trivial) host fuel _) throughout

end ObjectModel
