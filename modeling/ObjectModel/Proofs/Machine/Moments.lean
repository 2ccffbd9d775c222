import ObjectModel.Proofs.Heap.Callable
import ObjectModel.Proofs.Machine.Invariant
import ObjectModel.Proofs.Machine.Preservation

/-!
Contract: the moments of a run.

Any later moment comes about from an earlier one by commands (`Script.moments_become`). The
journal that notes the moments is kept by a simulation of the program beside itself, so all that
is required of the program is that it applies no definition that was validated against a made-up
description.

Does not own: what commands leave as it is.
-/

namespace ObjectModel

variable {σ α : Type}

/-- The same world beside a journal, whose heaps lead to each other and to the heap as it is
now. -/
structure Journal.Traces (start : Heap) (left : World σ) (right : World (σ × Journal)) : Prop where
  heap_eq : right.heap = left.heap
  depth_eq : right.depth = left.depth
  client_eq : right.client.1 = left.client
  ordered : (start :: right.client.2.map Event.heap).Pairwise Heap.Becomes
  reaches : ∀ heap ∈ start :: right.client.2.map Event.heap, heap.Becomes left.heap

namespace Journal.Traces

variable {start : Heap} {left : World σ} {right : World (σ × Journal)}

theorem withJournal (world : World σ) : Traces world.heap world world.withJournal where
  heap_eq := rfl
  depth_eq := rfl
  client_eq := rfl
  ordered := List.pairwise_singleton _ _
  reaches := fun heap member => by
    rw [List.mem_singleton.mp member]
    exact .refl world.heap

theorem withoutJournal_eq (traces : Traces start left right) : right.withoutJournal = left := by
  rw [World.withoutJournal, traces.heap_eq, traces.depth_eq, traces.client_eq]

/-- The moments with the heap as it is now put last. -/
theorem moments (traces : Traces start left right) :
    (start :: right.client.2.map Event.heap ++ [left.heap]).Pairwise Heap.Becomes :=
  pairwise_concat traces.ordered traces.reaches

/-- The heap as it is now, noted. -/
theorem note (traces : Traces start left right) (event : Event) (isNow : event.heap = left.heap) :
    Traces start left (Exec.note event right) := by
  have heaps : start :: (right.client.2 ++ [event]).map Event.heap =
      start :: right.client.2.map Event.heap ++ [left.heap] := by
    rw [List.map_append, List.map_singleton, isNow, List.cons_append]
  refine ⟨traces.heap_eq, traces.depth_eq, traces.client_eq, ?_, ?_⟩
  · rw [Exec.note, heaps]
    exact traces.moments
  · rw [Exec.note, heaps]
    intro heap member
    rcases List.mem_append.mp member with earlier | isLast
    · exact traces.reaches heap earlier
    · rw [List.mem_singleton.mp isLast]
      exact .refl left.heap

end Journal.Traces

/-- Every run beside one with a journal. -/
def World.tracingSimulation (σ : Type) (start : Heap) : Simulation σ (σ × Journal) where
  scope := .all
  early _ := False
  related := Journal.Traces start
  alike := fun traces => by
    rw [traces.heap_eq]
    exact .refl _ _
  heap_eq := fun _ _ _ traces => traces.heap_eq
  command := by
    intro left right traces command _
    rw [traces.heap_eq]
    exact ⟨rfl, { traces with
      heap_eq := rfl
      reaches := fun heap member => (traces.reaches heap member).command command }⟩
  applies := False
  validate := False.elim

namespace World

variable {start : Heap}

theorem tracing_framesAlike (σ : Type) (start : Heap) :
    (World.tracingSimulation σ start).FramesAlike where
  limit_eq := fun traces _ => by rw [traces.heap_eq]
  depth_eq := fun traces => traces.depth_eq
  depth := fun traces _ => { traces with depth_eq := rfl }

/-- What a method does is the same with its start and its end noted. -/
theorem tracing_noted {method : Call} {computation : Exec σ method.Answer}
    {computation' : Exec (σ × Journal) method.Answer}
    (agrees : (World.tracingSimulation σ start).Agrees computation fun _ => computation') :
    (World.tracingSimulation σ start).Agrees computation fun _ =>
      Exec.noted method computation' := by
  intro left right traces
  have results : (World.tracingSimulation σ start).Follows (computation left) fun _ =>
      computation' (Exec.note (.started method right.heap) right) :=
    agrees left _ (traces.note _ traces.heap_eq)
  unfold Exec.noted
  simp only
  generalize computation left = result,
    computation' (Exec.note (.started method right.heap) right) = result' at results
  cases results with
  | early world allowed => exact allowed.elim
  | @ok answer _ right' traces' _ ends =>
      obtain rfl := Filter.eventually_const.mp ends
      exact .ok answer
        (traces'.note (.ended right.client.2.length method (.ok answer) right'.heap)
          traces'.heap_eq)
        (.of_forall fun _ => rfl)
  | @error fault _ right' traces' _ ends =>
      obtain rfl := Filter.eventually_const.mp ends
      exact .error fault
        (traces'.note (.ended right.client.2.length method (.error fault) right'.heap)
          traces'.heap_eq)
        (.of_forall fun _ => rfl)

end World

namespace Script

/-- Noting moments is no matter of the script. -/
theorem IsWithin.similar_besideJournal {script : Script σ α} (within : script.IsWithin .all)
    (start : Heap) : (World.tracingSimulation σ start).Similar script script.besideJournal := by
  induction within with
  | done result => exact .done result
  | ask request within rest inductionHypothesis =>
      exact .ask request (Simulation.admits_of_within within) inductionHypothesis
  | look rest inductionHypothesis =>
      refine .look fun left right traces => ?_
      rw [traces.client_eq]
      exact inductionHypothesis left.client
  | update change rest inductionHypothesis =>
      refine .update (fun left right traces => ?_) inductionHypothesis
      exact { traces with client_eq := congrArg change traces.client_eq }

end Script

section Run

variable {host : Host σ} (hostWithin : host.IsWithin .all) {script : Script σ α}
  (scriptWithin : script.IsWithin .all)

include hostWithin

theorem Call.runNoted_dispatches (start : Heap) (fuel : Nat) :
    (World.tracingSimulation σ start).Dispatches (Call.run host fuel) fun _ =>
      Call.runNoted host fuel := by
  induction fuel with
  | zero => exact ⟨fun _ _ => .outOfFuel, False.elim⟩
  | succ fuel inductionHypothesis =>
      have codes := inductionHypothesis.codeAgrees fun code this arguments =>
        (hostWithin code this arguments).similar_besideJournal start
      exact ⟨fun _ within => World.tracing_noted
        (inductionHypothesis.step_agrees (World.tracing_framesAlike σ start) codes within),
        False.elim⟩

include scriptWithin

/-- The journal changes nothing, and of any two moments of the run commands lead from the earlier
one to the later one. -/
theorem Script.moments_become (fuel : Nat) (world : World σ) :
    Exec.withoutJournal (script.runNoted host fuel world.withJournal) =
        script.run host fuel world ∧
      (script.moments host fuel world).Pairwise Heap.Becomes := by
  have similar := scriptWithin.similar_besideJournal world.heap
  have results : (World.tracingSimulation σ world.heap).Follows (script.run host fuel world)
      fun _ => script.runNoted host fuel world.withJournal :=
    (Call.runNoted_dispatches hostWithin world.heap fuel).exec_agrees similar world _
      (.withJournal world)
  unfold Script.moments Script.journal Exec.reached
  generalize script.run host fuel world = result,
    script.runNoted host fuel world.withJournal = result' at results
  cases results with
  | early world allowed => exact allowed.elim
  | ok answer traces ends =>
      obtain rfl := Filter.eventually_const.mp ends
      exact ⟨congrArg (EStateM.Result.ok answer) traces.withoutJournal_eq, traces.moments⟩
  | error fault traces ends =>
      obtain rfl := Filter.eventually_const.mp ends
      exact ⟨congrArg (EStateM.Result.error fault) traces.withoutJournal_eq, traces.moments⟩

end Run

/-- Commands lead to every moment of the run from its start. -/
theorem Script.becomes_moment {host : Host σ} {script : Script σ α} {fuel : Nat} {world : World σ}
    (inOrder : (script.moments host fuel world).Pairwise Heap.Becomes) {heap : Heap}
    (member : heap ∈ script.moments host fuel world) : world.heap.Becomes heap := by
  rcases List.mem_cons.mp member with rfl | later
  · exact .refl world.heap
  · exact List.rel_of_pairwise_cons inOrder later

theorem Script.grounded_moments (host : Host σ) (script : Script σ α) (fuel : Nat)
    (world : World σ) :
    Exec.withoutJournal (script.grounded.runNoted host.grounded fuel world.withJournal) =
        script.grounded.run host.grounded fuel world ∧
      (script.grounded.moments host.grounded fuel world).Pairwise Heap.Becomes :=
  Script.moments_become (fun code this arguments => (host code this arguments).grounded_isWithin)
    script.grounded_isWithin fuel world

end ObjectModel
