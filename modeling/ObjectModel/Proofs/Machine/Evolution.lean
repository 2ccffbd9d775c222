import ObjectModel.Proofs.Machine.Agreement

/-!
Contract: whatever user code does, the heap takes allowed commands only.

This is agreement of every run with itself. Two worlds are taken for related if they are
equal and their heap has evolved from a given one (`Heap.Since`); an internal method in any
depth, with getters, setters, traps and functions that ask for proper requests only, ends in
such a world again, also where it fails.

Owns: the user code that is admitted (`Host.IsProper`).
-/

namespace ObjectModel

variable {σ : Type}

/-- A script that makes proper requests only. -/
inductive Script.IsProper {α : Type} : Script σ α → Prop
  | done (result : α) : IsProper (.done result)
  | ask (request : Request) (proper : request.IsProper)
      {next : Except Error request.Answer → Script σ α}
      (rest : ∀ answer, IsProper (next answer)) : IsProper (.ask request next)
  | look {next : σ → Script σ α} (rest : ∀ state, IsProper (next state)) :
      IsProper (.look next)
  | update (change : σ → σ) {next : Script σ α} (rest : IsProper next) :
      IsProper (.update change next)

/-- User code that makes proper requests only. -/
def Host.IsProper (host : Host σ) : Prop :=
  ∀ code this arguments, (host code this arguments).IsProper

/-- Two equal worlds whose heap has evolved from a well-formed one. -/
structure Heap.Since (start : Heap) (left right : World σ) : Prop where
  same : right = left
  wellFormed : start.WellFormed
  evolves : start.Evolves left.heap

theorem Heap.compatible_since (start : Heap) :
    Compatible (start.Since : World σ → World σ → Prop) where
  heap_eq := fun worlds => by rw [worlds.same]
  depth_eq := fun worlds => by rw [worlds.same]
  command := by
    rintro left _ ⟨rfl, wellFormed, evolves⟩ command allowed
    exact ⟨rfl, wellFormed, evolves.tail (.take command allowed)⟩
  depth := by
    rintro left _ ⟨rfl, wellFormed, evolves⟩ depth
    exact ⟨rfl, wellFormed, evolves⟩

theorem Script.IsProper.similar {α : Type} {script : Script σ α} (proper : script.IsProper)
    (start : Heap) : Script.Similar start.Since script script := by
  induction proper with
  | done result => exact .done result
  | ask request proper rest inductionHypothesis => exact .ask request proper inductionHypothesis
  | look rest inductionHypothesis =>
      refine .look fun left right worlds => ?_
      rw [worlds.same]
      exact inductionHypothesis left.client
  | update change rest inductionHypothesis =>
      refine .update ?_ inductionHypothesis
      rintro left _ ⟨rfl, wellFormed, evolves⟩
      exact ⟨rfl, wellFormed, evolves⟩

namespace Exec

variable {α : Type}

/-- Where a computation ends, with an answer or with a fault. -/
def reached (computation : Exec σ α) (world : World σ) : World σ :=
  match computation world with
  | .ok _ world => world
  | .error _ world => world

/-- The heap takes allowed commands only. -/
def IsEvolving (computation : Exec σ α) : Prop :=
  ∀ start : Heap, Agrees start.Since computation computation

theorem IsEvolving.evolves_reached {computation : Exec σ α} (evolving : IsEvolving computation)
    {before : World σ} (wellFormed : before.heap.WellFormed) :
    before.heap.Evolves (reached computation before).heap := by
  have results := evolving before.heap before before ⟨rfl, wellFormed, .refl⟩
  unfold reached
  generalize computation before = result at results
  cases results with
  | ok answer worlds => exact worlds.evolves
  | error fault worlds => exact worlds.evolves

theorem IsEvolving.evolves {computation : Exec σ α} (evolving : IsEvolving computation)
    {before after : World σ} (wellFormed : before.heap.WellFormed) {answer : α}
    (ended : computation before = .ok answer after) : before.heap.Evolves after.heap := by
  have evolves := evolving.evolves_reached wellFormed
  unfold reached at evolves
  rwa [ended] at evolves

theorem IsEvolving.follows {computation : Exec σ α} (evolving : IsEvolving computation)
    {before after : World σ} (wellFormed : before.heap.WellFormed) {answer : α}
    (ended : computation before = .ok answer after) : before.heap.Follows after.heap :=
  wellFormed.follows (evolving.evolves wellFormed ended)

/-- Objects in hand make no difference to the content of the heap. -/
theorem holding_follows {objects : List ObjectId} {computation : Exec σ α}
    {before after : World σ} (wellFormed : before.heap.WellFormed) {answer : α}
    (ended : holding objects computation before = .ok answer after) :
    ∃ first last, computation first = .ok answer last ∧ before.heap.Follows first.heap ∧
      (last.heap.WellFormed → last.heap.Follows after.heap) := by
  obtain ⟨last, inner, released⟩ := holding_eq_ok ended
  refine ⟨_, last, inner, (Heap.sameContent_holdAll _ _).follows wellFormed, ?_⟩
  intro lastWellFormed
  rw [released]
  exact (Heap.sameContent_releaseAll _ _).follows lastWellFormed

end Exec

/-! ### One object -/

theorem Machine.byKind_ordinary {α : Type} {id : ObjectId} {world : World σ}
    (ordinary : world.heap.isExotic id = false) (exotic method : Exec σ α) :
    Machine.byKind id exotic method world = method world := by
  unfold Machine.byKind
  rw [Exec.bind_apply]
  show (if world.heap.isExotic id then Exec.inProxyFrame id exotic else method) world = _
  rw [ordinary]
  rfl

theorem Machine.byKind_exotic {α : Type} {id : ObjectId} {world : World σ}
    (isExotic : world.heap.isExotic id = true) (exotic method : Exec σ α) :
    Machine.byKind id exotic method world = Exec.inProxyFrame id exotic world := by
  unfold Machine.byKind
  rw [Exec.bind_apply]
  show (if world.heap.isExotic id then Exec.inProxyFrame id exotic else method) world = _
  rw [isExotic]
  rfl

/-! ### Runs -/

variable {host : Host σ} (hostProper : host.IsProper)

include hostProper

/-- Internal methods of any depth take allowed commands only. -/
theorem Call.run_agrees (fuel : Nat) (start : Heap) :
    DispatchAgrees start.Since (Call.run host fuel) (Call.run host fuel) := by
  induction fuel generalizing start with
  | zero =>
      refine ⟨fun _ _ => .outOfFuel, ?_⟩
      intro _ _ _ _ _ _ _ ended
      cases ended
  | succ fuel inductionHypothesis =>
      have agrees : ∀ (start : Heap) (method : Call), method.IsProper →
          Agrees start.Since (Call.run host (fuel + 1) method)
            (Call.run host (fuel + 1) method) := by
        intro start method proper
        exact Call.step_agrees start.compatible_since (inductionHypothesis start)
          (fun code this arguments => (hostProper code this arguments).similar start) proper
      refine ⟨agrees start, ?_⟩
      intro left right worlds id key current after ended ordinary
      have wellFormed := (worlds.wellFormed.follows worlds.evolves).wellFormed
      have evolving : Exec.IsEvolving (Call.run host (fuel + 1) (.getOwnProperty id key)) :=
        fun start => agrees start _ trivial
      have follows := wellFormed.follows (evolving.evolves wellFormed ended)
      cases exotic : left.heap.isExotic id with
      | true =>
          rw [follows.isExotic_eq (Heap.lt_of_isExotic exotic), exotic] at ordinary
          contradiction
      | false =>
          have read := Machine.byKind_ordinary exotic
            (Machine.proxyGetOwnProperty (Call.run host fuel) id key)
            (return (← Exec.heap).getOwn id key)
          rw [Call.run, Call.step, read] at ended
          change EStateM.Result.ok (left.heap.getOwn id key) left = _ at ended
          injection ended with found same
          rw [← same]
          exact found

theorem Call.run_readsOwn (fuel : Nat) {world : World σ} (wellFormed : world.heap.WellFormed) :
    ReadsOwn (Call.run host fuel) world :=
  (Call.run_agrees hostProper fuel world.heap).readsOwn ⟨rfl, wellFormed, .refl⟩

theorem Call.run_evolving (fuel : Nat) {method : Call} (proper : method.IsProper) :
    Exec.IsEvolving (Call.run host fuel method) :=
  fun start => (Call.run_agrees hostProper fuel start).method method proper

theorem Script.run_evolving (fuel : Nat) {α : Type} {script : Script σ α}
    (proper : script.IsProper) : Exec.IsEvolving (script.run host fuel) :=
  fun start => Script.exec_agrees start.compatible_since
    (Call.run_agrees hostProper fuel start) (proper.similar start)

end ObjectModel
