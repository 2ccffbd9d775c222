import ObjectModel.Proofs.Heap.Twin
import ObjectModel.Proofs.Machine.Evolution

/-!
Contract: how objects are stored is invisible to programs.

A program runs the same whether objects may become dictionaries, from which size on they do,
and whether keys in order are sorted again: every request gets the same answer or the same
error, whoever makes it and however deep, and objects are numbered alike. The two heaps are
twins all the way.

Freezing and shapes are outside of it (`Scope.withoutFreezing`).

Owns: the transcript of a program (`Script.transcribed`).
-/

namespace ObjectModel

variable {σ α : Type}

/-! ### Transcripts -/

/-- A request, and what came of it. -/
structure Reply where
  request : Request
  answer : Except Error request.Answer

/-- The script with every request written down once it is answered. -/
def Script.transcribed : Script σ α → Script (σ × List Reply) α
  | .done result => .done result
  | .ask request next => .ask request fun answer =>
      .update (fun state => (state.1, state.2 ++ [⟨request, answer⟩])) (next answer).transcribed
  | .look next => .look fun state => (next state.1).transcribed
  | .update change next => .update (fun state => (change state.1, state.2)) next.transcribed

def Host.transcribed (host : Host σ) : Host (σ × List Reply) :=
  fun code this arguments => (host code this arguments).transcribed

theorem Script.IsWithin.transcribed {scope : Scope} {script : Script σ α}
    (within : script.IsWithin scope) : script.transcribed.IsWithin scope := by
  induction within with
  | done result => exact .done result
  | ask request within rest inductionHypothesis =>
      exact .ask request within fun answer => .update _ (inductionHypothesis answer)
  | look rest inductionHypothesis => exact .look fun state => inductionHypothesis state.1
  | update change rest inductionHypothesis => exact .update _ inductionHypothesis

/-! ### Twin worlds -/

/-- How a computation ends. -/
def Exec.outcome (computation : Exec σ α) (world : World σ) : Except Fault α :=
  match computation world with
  | .ok answer _ => .ok answer
  | .error fault _ => .error fault

/-- The same world on a twin of the heap. -/
structure World.Twin (left right : World σ) : Prop where
  heap : left.heap.Twin right.heap
  depth_eq : right.depth = left.depth
  client_eq : right.client = left.client

def World.twinSimulation (σ : Type) : Simulation σ σ where
  scope := .withoutFreezing
  early _ := False
  related := World.Twin
  alike := fun worlds => worlds.heap.alike.resembles
  heap_eq := False.elim
  command := by
    intro left right worlds command within
    obtain ⟨sameAnswer, twins⟩ := worlds.heap.command command within
    exact ⟨sameAnswer, twins, worlds.depth_eq, worlds.client_eq⟩
  applies := False
  validate := False.elim

theorem World.twin_framesAlike (σ : Type) : (World.twinSimulation σ).FramesAlike where
  limit_eq := fun worlds => worlds.heap.alike.maxProxyDepth_eq
  depth_eq := World.Twin.depth_eq
  depth := fun worlds _ => ⟨worlds.heap, rfl, worlds.client_eq⟩

section Runs

variable {host : Host σ} (hostWithin : host.IsWithin .withoutFreezing) {script : Script σ α}
  (scriptWithin : script.IsWithin .withoutFreezing)

include hostWithin scriptWithin

/-- A program ends alike in twin worlds, which are twins still. -/
theorem Script.run_twin {left right : World σ} (worlds : left.Twin right) (fuel : Nat) :
    Exec.outcome (script.run host fuel) right = Exec.outcome (script.run host fuel) left ∧
      (Exec.reached (script.run host fuel) left).Twin
        (Exec.reached (script.run host fuel) right) := by
  have similar : ∀ {α : Type} {script : Script σ α},
      script.IsWithin (World.twinSimulation σ).scope →
        (World.twinSimulation σ).Similar script script := fun within =>
    within.similar World.Twin.client_eq fun worlds _ => ⟨worlds.heap, worlds.depth_eq, rfl⟩
  have free : ¬ (World.twinSimulation σ).scope.writable := id
  have agrees := Simulation.run_agrees free (World.twin_framesAlike σ)
    (fun code this arguments => similar (hostWithin code this arguments)) (similar scriptWithin)
    fuel
  have results : (World.twinSimulation σ).Follows (script.run host fuel left) fun _ =>
      script.run host fuel right := agrees left right worlds
  unfold Exec.outcome Exec.reached
  generalize script.run host fuel left = result, script.run host fuel right = result' at results
  cases results with
  | early world allowed => exact allowed.elim
  | ok answer worlds ends =>
      obtain rfl := Filter.eventually_const.mp ends
      exact ⟨rfl, worlds⟩
  | error fault worlds ends =>
      obtain rfl := Filter.eventually_const.mp ends
      exact ⟨rfl, worlds⟩

/-- Under both configurations a program ends alike, has got the same replies to everything
that was asked on the way, and leaves objects behind that look alike. -/
theorem Script.run_settings {config config' : Config}
    (sameDepth : config'.maxProxyDepth = config.maxProxyDepth) (fuel : Nat) (state : σ) :
    let plain := script.run host fuel
    let transcribed := script.transcribed.run host.transcribed fuel
    (Exec.outcome plain ⟨.start config', 0, state⟩ =
        Exec.outcome plain ⟨.start config, 0, state⟩ ∧
      (Exec.reached plain ⟨.start config', 0, state⟩).client =
        (Exec.reached plain ⟨.start config, 0, state⟩).client ∧
      (Exec.reached plain ⟨.start config, 0, state⟩).heap.Alike (· = .sealed)
        (Exec.reached plain ⟨.start config', 0, state⟩).heap) ∧
    (Exec.outcome transcribed ⟨.start config', 0, (state, [])⟩ =
        Exec.outcome transcribed ⟨.start config, 0, (state, [])⟩ ∧
      (Exec.reached transcribed ⟨.start config', 0, (state, [])⟩).client =
        (Exec.reached transcribed ⟨.start config, 0, (state, [])⟩).client) := by
  have start : ∀ {σ : Type} (state : σ),
      (⟨.start config, 0, state⟩ : World σ).Twin ⟨.start config', 0, state⟩ :=
    fun _ => ⟨Heap.twin_start sameDepth, rfl, rfl⟩
  obtain ⟨sameOutcome, ends⟩ := run_twin hostWithin scriptWithin (start state) fuel
  obtain ⟨sameOutcome', ends'⟩ := run_twin
    (fun code this arguments => (hostWithin code this arguments).transcribed)
    scriptWithin.transcribed (start (state, [])) fuel
  exact ⟨⟨sameOutcome, ends.client_eq, ends.heap.alike⟩, sameOutcome', ends'.client_eq⟩

end Runs

/-! ### A literal in both storages -/

/-- A literal gets an index and a string key, and a function seals it. -/
def Script.sealingLiteral : Script Unit (List PropertyKey) :=
  .ask (.newObject 0 none true) fun _ =>
  .ask (.call (.createData 0 (.ofNat 7) .null)) fun _ =>
  .ask (.call (.createData 0 (.ofString "name") .null)) fun _ =>
  .ask (.newFunction 0 none "seal" 0) fun _ =>
  .ask (.call (.call 1 (.object 0) [])) fun _ =>
  .ask (.call (.allKeys 0)) fun keys => .done (keys.toOption.getD [])

/-- Every function seals its receiver. -/
def Host.sealing : Host Unit := fun _ this _ =>
  match this with
  | .object id => .ask (.setIntegrity id .sealed) fun _ => .done (.ok .undefined)
  | _ => .done (.ok .undefined)

/-- Literals become dictionaries with an index for their first property, and the keys of a
dictionary are sorted. -/
def Config.dictionaries : Config := {}

/-- No object becomes a dictionary, and keys are in order as they were created. -/
def Config.shapesOnly : Config := { dictionaryObjects := false }

/-- The literal is a dictionary under the one configuration only, and has its keys in the same
order under either. -/
theorem Script.run_settings_literal :
    (Host.sealing.IsWithin .withoutFreezing ∧ sealingLiteral.IsWithin .withoutFreezing ∧
      Config.dictionaries.maxProxyDepth = Config.shapesOnly.maxProxyDepth) ∧
    Exec.outcome (sealingLiteral.run Host.sealing 3) ⟨.start .dictionaries, 0, ()⟩ =
      .ok [.ofNat 7, .ofString "name"] ∧
    (Exec.reached (sealingLiteral.run Host.sealing 3)
      ⟨.start .dictionaries, 0, ()⟩).heap.isDictionary 0 = true ∧
    (Exec.reached (sealingLiteral.run Host.sealing 3)
      ⟨.start .shapesOnly, 0, ()⟩).heap.isDictionary 0 = false := by
  have hostWithin : Host.sealing.IsWithin .withoutFreezing := by
    intro _ this _
    cases this with
    | object id => exact .ask _ (by rfl) fun _ => .done _
    | _ => exact .done _
  have scriptWithin : sealingLiteral.IsWithin .withoutFreezing := by
    iterate 6 refine .ask _ (by trivial) fun _ => ?_
    exact .done _
  have sameDepth : Config.dictionaries.maxProxyDepth = Config.shapesOnly.maxProxyDepth := rfl
  have created : Exec.outcome (sealingLiteral.run Host.sealing 3)
      ⟨.start .shapesOnly, 0, ()⟩ = .ok [.ofNat 7, .ofString "name"] := by
    rfl
  have same := (run_settings hostWithin scriptWithin sameDepth 3 ()).1.1
  exact ⟨⟨hostWithin, scriptWithin, sameDepth⟩, same.trans created, by decide, by decide⟩

end ObjectModel
