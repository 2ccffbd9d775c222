import ObjectModel.Proofs.Heap.Built

/-!
Contract: what every command keeps, grounded programs keep.

An invariant of the commands that programs can take holds wherever a program ends
(`Script.run_keeps`). `Heap.IsKept` is an invariant of all commands, allowed or not. Whatever a
grounded program runs in between, a method that ends with an answer has not broken it
(`Call.run_maintains`), and neither have the computations that methods consist of.
-/

namespace ObjectModel

variable {σ α : Type}

/-- What holds of a heap holds after any command. -/
def Heap.IsKept (holds : Heap → Prop) : Prop :=
  ∀ heap, holds heap → ∀ command : Heap.Command, holds (command.run heap).1

/-- What holds at the start holds where the computation ends with an answer. -/
def Exec.Maintains (holds : Heap → Prop) (computation : Exec σ α) : Prop :=
  ∀ ⦃before after : World σ⦄ ⦃answer : α⦄, holds before.heap →
    computation before = .ok answer after → holds after.heap

/-! ### Invariants -/

namespace Heap

theorem isKept_reachable : IsKept Reachable :=
  fun _ reachable command => reachable.command command

/-- No command makes an old object exotic, or an exotic one ordinary. -/
theorem Command.isExotic_eq {heap : Heap} (wellFormed : heap.WellFormed) (command : Command)
    {id : ObjectId} (inRange : id < heap.objects.size) :
    (command.run heap).1.isExotic id = heap.isExotic id := by
  cases command with
  | addStore _ | allocate _ _ _ _ | describe _ _ | revoke _ =>
      exact (Command.follows wellFormed _ (by trivial)).isExotic_eq inRange
  | _ => exact isExotic_congr (Command.kind_eq wellFormed (by trivial) id)

/-- Commands lead to the heap, which has an object that is not exotic. -/
structure ReachableWith (id : ObjectId) (heap : Heap) : Prop where
  reachable : heap.Reachable
  inRange : id < heap.objects.size
  ordinary : heap.isExotic id = false

theorem isKept_reachableWith (id : ObjectId) : IsKept (ReachableWith id) := by
  intro heap holds command
  have wellFormed := holds.reachable.wellFormed
  exact ⟨holds.reachable.command command,
    Nat.lt_of_lt_of_le holds.inRange (command.size_le wellFormed),
    (command.isExotic_eq wellFormed holds.inRange).trans holds.ordinary⟩

end Heap

/-! ### Programs -/

section Within

variable {holds : Heap → Prop} (kept : ∀ heap, holds heap → ∀ command : Heap.Command,
  command.Within .all heap → holds (command.run heap).1)

/-- Equal worlds with a heap of which something holds that no program can break. -/
def World.keptWithinSimulation (σ : Type) : Simulation σ σ where
  scope := .all
  early _ := False
  related left right := right = left ∧ holds left.heap
  alike := fun worlds => by
    rw [worlds.1]
    exact .refl _ _
  heap_eq := fun _ _ _ worlds => by rw [worlds.1]
  command := by
    rintro left _ ⟨rfl, held⟩ command within
    exact ⟨rfl, rfl, kept _ held command within⟩
  applies := False
  validate := False.elim

include kept

theorem World.keptWithin_framesAlike (σ : Type) :
    (World.keptWithinSimulation kept σ).FramesAlike where
  limit_eq := fun worlds _ => by rw [worlds.1]
  depth_eq := fun worlds => by rw [worlds.1]
  depth := by
    rintro left _ ⟨rfl, held⟩ depth
    exact ⟨rfl, held⟩

theorem Script.grounded_similar_kept (script : Script σ α) :
    (World.keptWithinSimulation kept σ).Similar script.grounded script.grounded := by
  apply Script.IsWithin.similar script.grounded_isWithin
  · rintro left _ ⟨rfl, -⟩
    rfl
  · rintro left _ ⟨rfl, held⟩ client
    exact ⟨rfl, held⟩

/-- What holds of a heap holds wherever a program ends that starts there. -/
theorem Script.run_keeps (host : Host σ) (script : Script σ α) (fuel : Nat) (world : World σ)
    (held : holds world.heap) :
    holds (Exec.reached (script.grounded.run host.grounded fuel) world).heap := by
  have hosts : (World.keptWithinSimulation kept σ).SimilarHosts host.grounded host.grounded :=
    fun code this arguments => (host code this arguments).grounded_similar_kept kept
  have results := Simulation.run_agrees not_false (World.keptWithin_framesAlike kept σ) hosts
    (script.grounded_similar_kept kept) fuel world world ⟨rfl, held⟩
  unfold Exec.reached
  generalize script.grounded.run host.grounded fuel world = result at results
  cases results with
  | early world allowed => exact allowed.elim
  | ok answer worlds => exact worlds.2
  | error fault worlds => exact worlds.2

end Within

/-- Programs take one command after the other. -/
theorem Script.run_commands (host : Host σ) (script : Script σ α) (fuel : Nat) (world : World σ) :
    ∃ commands, (Exec.reached (script.grounded.run host.grounded fuel) world).heap =
      Heap.Command.runAll world.heap commands := by
  have kept : ∀ heap, (∃ commands, heap = Heap.Command.runAll world.heap commands) →
      ∀ command : Heap.Command, command.Within .all heap →
        ∃ commands, (command.run heap).1 = Heap.Command.runAll world.heap commands := by
    rintro _ ⟨commands, rfl⟩ command -
    exact ⟨commands ++ [command], (Heap.Command.runAll_concat _ commands command).symm⟩
  exact script.run_keeps kept host fuel world ⟨[], rfl⟩

/-! ### Methods -/

/-- Equal worlds with a heap of which something holds. -/
def World.keptSimulation (σ : Type) {holds : Heap → Prop} (kept : Heap.IsKept holds) :
    Simulation σ σ where
  scope := .all
  early _ := False
  related left right := right = left ∧ holds left.heap
  alike := fun worlds => by
    rw [worlds.1]
    exact .refl _ _
  heap_eq := fun _ _ _ worlds => by rw [worlds.1]
  command := by
    rintro left _ ⟨rfl, held⟩ command _
    exact ⟨rfl, rfl, kept _ held command⟩
  applies := False
  validate := False.elim

section Kept

variable {holds : Heap → Prop} (kept : Heap.IsKept holds)

theorem World.kept_framesAlike (σ : Type) : (World.keptSimulation σ kept).FramesAlike :=
  World.keptWithin_framesAlike (fun heap held command _ => kept heap held command) σ

theorem Exec.maintains_of_agrees {computation : Exec σ α}
    (agrees : (World.keptSimulation σ kept).Agrees computation fun _ => computation) :
    Exec.Maintains holds computation := by
  intro before after answer held ended
  have results := agrees before before ⟨rfl, held⟩
  rw [ended] at results
  cases results with
  | ok _ worlds _ => exact worlds.2

theorem Call.kept_dispatches (host : Host σ) (fuel : Nat) :
    (World.keptSimulation σ kept).Dispatches (Call.run host.grounded fuel) fun _ =>
      Call.run host.grounded fuel := by
  have within := fun heap held command (_ : Heap.Command.Within .all heap command) =>
    kept heap held command
  exact Simulation.run_dispatches not_false (World.kept_framesAlike kept σ)
    (fun code this arguments => (host code this arguments).grounded_similar_kept within) fuel

include kept in
theorem Call.run_maintains (host : Host σ) (fuel : Nat) (method : Call) :
    Exec.Maintains holds (Call.run host.grounded fuel method) :=
  Exec.maintains_of_agrees kept ((Call.kept_dispatches kept host fuel).method _ method.within_all)

end Kept

end ObjectModel
