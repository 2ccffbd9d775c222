import ObjectModel.Proofs.Machine.Grounding
import ObjectModel.Proofs.Strict.Writes

/-!
Contract: the walk along the chain is the recursion along the chain.

The language defines lookups by recursion: an object that does not have a property of its own
leaves the lookup to the same internal method of its prototype, whatever object that is
(`Strategy.recursive`). `Strategy.walking` goes along the links of ordinary objects itself.
With fuel enough both give the same answers and the same errors, with the same calls of
functions in the same order, and end in the same heap (`Flagged.run_recursive`).

One strategy simulates another (`Strategy.Simulates`) if a lookup that agrees on each of its
parts agrees as a whole; the walk ends because the heap is chained.
-/

namespace ObjectModel

variable {σ τ α : Type}

/-- What a lookup does at an object: it takes the property that the object has, or goes
further to its prototype. -/
def Search.lookAt (lookup : Search σ α) (heap : Heap) (id : ObjectId) (key : PropertyKey)
    (further : ObjectId → Exec σ α) : Exec σ α :=
  match heap.lookup id key with
  | some (attributes, slot) => lookup.found (heap.inHand id slot) attributes slot
  | none =>
      match heap.prototype id with
      | some parent => further parent
      | none => lookup.missing

/-- A prototype is asked for the property. An exotic one is in hand until it has answered. -/
def Search.askParent (lookup : Search σ α) (heap : Heap) (parent : ObjectId) : Exec σ α :=
  if heap.isExotic parent then Exec.holding [parent] (lookup.next parent)
  else lookup.next parent

/-- The search of the language. A prototype is asked for the property, by the method that is
looked up for. -/
def Strategy.recursive : Strategy σ where
  search lookup id key := do
    let heap ← Exec.heap
    lookup.lookAt heap id key (lookup.askParent heap)
  search_report strict lookup id key := by
    rw [bind_assoc]
    congr 1
    funext heap
    unfold Search.lookAt
    cases heap.lookup id key with
    | some found => rfl
    | none =>
        cases heap.prototype id with
        | none => rfl
        | some parent =>
            simp only [Search.askParent]
            split
            · exact Exec.holding_report strict [parent] (lookup.next parent)
            · rfl

/-! ### Two strategies -/

/-- Lookups that agree on each of their parts. -/
structure Search.Agrees (simulation : Simulation σ τ) (first : Search σ α)
    (second : Nat → Search τ α) : Prop where
  found : ∀ inHand attributes slot,
    simulation.Agrees (first.found inHand attributes slot) fun fuel =>
      (second fuel).found inHand attributes slot
  next : ∀ id, simulation.Agrees (first.next id) fun fuel => (second fuel).next id
  missing : simulation.Agrees first.missing fun fuel => (second fuel).missing

/-- An ordinary object that is asked searches on by itself. -/
def Strategy.Unrolls (strategy : Strategy σ) (key : PropertyKey) (lookup : Nat → Search σ α) :
    Prop :=
  ∀ fuel id (world : World σ), world.heap.isExotic id = false →
    (lookup (fuel + 1)).next id world = strategy.search (lookup fuel) id key world

/-- The second strategy follows the first one on every ordinary object. -/
def Strategy.Simulates (simulation : Simulation σ τ) (first : Strategy σ)
    (second : Strategy τ) : Prop :=
  ∀ {α : Type} {key : PropertyKey} {lookup : Search σ α} {lookup' : Nat → Search τ α},
    lookup.Agrees simulation lookup' → second.Unrolls key lookup' → ∀ id left right,
      simulation.related left right → left.heap.isExotic id = false →
        simulation.Follows (first.search lookup id key left) fun fuel =>
          second.search (lookup' fuel) id key right

namespace Flagged

section Lookups

variable {simulation : Simulation σ τ} {first : FlaggedDispatch σ}
  {second : Nat → FlaggedDispatch τ}
  (dispatches : simulation.Dispatches (first false) fun fuel => second fuel false)

include dispatches

theorem get_agrees (key : PropertyKey) (receiver : Value) :
    (Search.get (first false) key receiver).Agrees simulation fun fuel =>
      .get (second fuel false) key receiver where
  found _ _ _ := .bind (dispatches.readSlot_agrees _ _ _) fun _ => .pure _
  next id := dispatches.method (.get id key receiver) trivial
  missing := .pure _

theorem has_agrees (key : PropertyKey) :
    (Search.has (first false) key).Agrees simulation fun fuel =>
      .has (second fuel false) key where
  found _ _ _ := .pure _
  next id := dispatches.method (.has id key) trivial
  missing := .pure _

theorem setSearch_agrees (key : PropertyKey) (value receiver : Value) :
    (setSearch first false key value receiver).Agrees simulation fun fuel =>
      setSearch (second fuel) false key value receiver where
  found _ _ _ := .holding _ (dispatches.setWithOwn_agrees _ key value receiver)
  next id := dispatches.method (.set id key value receiver) trivial
  missing := dispatches.setWithOwn_agrees (.data .undefined .assigned) key value receiver

end Lookups

section Unrolls

variable (strategy : Strategy σ) (host : Host σ) (key : PropertyKey)

theorem get_unrolls (receiver : Value) :
    strategy.Unrolls key fun fuel => .get (run strategy host fuel false) key receiver :=
  fun _ _ _ notExotic => Machine.byKind_ordinary notExotic _ _

theorem has_unrolls :
    strategy.Unrolls key fun fuel => .has (run strategy host fuel false) key :=
  fun _ _ _ notExotic => Machine.byKind_ordinary notExotic _ _

theorem setSearch_unrolls (value receiver : Value) :
    strategy.Unrolls key fun fuel =>
      setSearch (run strategy host fuel) false key value receiver :=
  fun _ _ _ notExotic => Machine.byKind_ordinary notExotic _ _

end Unrolls

/-- One method for a sloppy caller. -/
theorem step_agrees {simulation : Simulation σ τ} (frames : simulation.FramesAlike)
    {strategy : Strategy σ}
    {strategy' : Strategy τ} (simulates : strategy.Simulates simulation strategy')
    {host : Host σ} {host' : Host τ} {first : FlaggedDispatch σ}
    (dispatches : simulation.Dispatches (first false) fun fuel =>
      run strategy' host' fuel false)
    (codes : Simulation.Dispatches.CodeAgrees simulation (first false)
      (fun fuel => run strategy' host' fuel false) host host')
    {method : Call} (within : method.Within simulation.scope) :
    simulation.Agrees (step first false strategy host method) fun fuel =>
      step (run strategy' host' fuel) false strategy' host' method := by
  cases method with
  | get id key receiver =>
      exact Simulation.Dispatches.byKind_agrees frames id
        (dispatches.proxyGet_agrees id key receiver)
        (simulates (get_agrees dispatches key receiver) (get_unrolls _ _ _ _) id)
  | has id key =>
      exact Simulation.Dispatches.byKind_agrees frames id (dispatches.proxyHas_agrees id key)
        (simulates (has_agrees dispatches key) (has_unrolls _ _ _) id)
  | set id key value receiver =>
      simp only [step, Exec.bind_report_false]
      exact Simulation.Dispatches.byKind_agrees frames id
        (dispatches.proxySet_agrees id key value receiver)
        (simulates (setSearch_agrees dispatches key value receiver)
          (setSearch_unrolls _ _ _ _ _) id)
  | _ =>
      simp only [step, Exec.bind_report_false]
      exact dispatches.step_agrees frames codes within

end Flagged

/-! ### The walk and the recursion -/

namespace Strategy

/-- The walk, seen from where it starts. -/
theorem walking_search_eq {lookup : Search σ α} {id : ObjectId} {world : World σ}
    (chained : world.heap.Chained) (notExotic : world.heap.isExotic id = false)
    (key : PropertyKey) :
    walking.search lookup id key world =
      lookup.lookAt world.heap id key
        (fun parent =>
          if world.heap.isExotic parent then Exec.holding [parent] (lookup.next parent)
          else walking.search lookup parent key) world := by
  show lookup.resolve world.heap (world.heap.findProperty id key) world = _
  rw [chained.findProperty_eq notExotic, Search.lookAt]
  cases world.heap.lookup id key with
  | some found => rfl
  | none =>
      cases world.heap.prototype id with
      | none => rfl
      | some parent =>
          simp only
          cases world.heap.isExotic parent <;> rfl

theorem recursive_search_eq (lookup : Search σ α) (id : ObjectId) (key : PropertyKey)
    (world : World σ) :
    recursive.search lookup id key world =
      lookup.lookAt world.heap id key (lookup.askParent world.heap) world :=
  rfl

variable {early : Prop} {count : Nat}

/-- Along the chain, the recursion goes where the walk does. -/
theorem walking_simulates_recursive :
    walking.Simulates (Discipline.grounded.simulation σ early count) recursive := by
  rintro α key lookup lookup' agrees unrolls id _ world worlds notExotic
  obtain rfl := worlds.same
  have chained : world.heap.Chained := worlds.held
  obtain ⟨steps, chain⟩ := chained.ends (some id)
  generalize isStart : some id = start at chain
  induction chain generalizing id with
  | null => cases isStart
  | exotic isExotic =>
      cases isStart
      rw [notExotic] at isExotic
      cases isExotic
  | @ordinary first steps _ rest inductionHypothesis =>
      have same : id = first := Option.some.inj isStart
      subst same
      simp only [walking_search_eq chained notExotic, recursive_search_eq, Search.lookAt,
        Search.askParent]
      cases world.heap.lookup id key with
      | some found => exact agrees.found _ _ _ _ _ worlds
      | none =>
          cases prototype : world.heap.prototype id with
          | none => exact agrees.missing _ _ worlds
          | some parent =>
              simp only
              split
              · exact Simulation.Agrees.holding [parent] (agrees.next parent) _ _ worlds
              · rename_i ordinary
                rw [Bool.not_eq_true] at ordinary
                -- the prototype is asked, which costs fuel
                refine .of_succ ?_
                simp only [unrolls _ _ _ ordinary]
                exact inductionHypothesis parent ordinary prototype.symm

/-- What the prototype answers when it is asked, the walk finds on it. -/
theorem recursive_simulates_walking :
    recursive.Simulates (Discipline.grounded.simulation σ early count) walking := by
  rintro α key lookup lookup' agrees unrolls id _ world worlds notExotic
  obtain rfl := worlds.same
  have chained : world.heap.Chained := worlds.held
  simp only [walking_search_eq chained notExotic, recursive_search_eq, Search.lookAt,
    Search.askParent]
  cases world.heap.lookup id key with
  | some found => exact agrees.found _ _ _ _ _ worlds
  | none =>
      cases world.heap.prototype id with
      | none => exact agrees.missing _ _ worlds
      | some parent =>
          simp only
          split
          · exact Simulation.Agrees.holding [parent] (agrees.next parent) _ _ worlds
          · rename_i ordinary
            rw [Bool.not_eq_true] at ordinary
            have asked := agrees.next parent _ _ worlds
            refine asked.succ.congr (.of_forall fun fuel => ?_)
            exact (unrolls fuel parent world ordinary).symm

end Strategy

/-- Whichever way ordinary objects search, all methods of grounded programs agree. -/
theorem Flagged.run_dispatches {early : Prop} (isEarly : early) {strategy strategy' : Strategy σ}
    (simulates : ∀ count,
      strategy.Simulates (Discipline.grounded.simulation σ early count) strategy')
    (host : Host σ) (fuel count : Nat) :
    (Discipline.grounded.simulation σ early count).Dispatches
      (run strategy host.grounded fuel false) fun fuel' =>
        run strategy' host.grounded fuel' false := by
  induction fuel generalizing count with
  | zero => exact ⟨fun _ _ left _ _ => .early left isEarly _, False.elim⟩
  | succ fuel inductionHypothesis =>
      refine ⟨fun method within => .of_succ ?_, False.elim⟩
      exact step_agrees (Discipline.grounded.framesAlike σ early count) (simulates count)
        (inductionHypothesis count) (fun code this arguments =>
          Discipline.script_agrees inductionHypothesis (host code this arguments) count) within

/-- A run that ends is followed by one that ends alike. -/
theorem World.eventually_eq_of_follows {early : Prop} {count : Nat}
    {result : EStateM.Result Fault (World σ) α}
    {results : Nat → EStateM.Result Fault (World σ) α}
    (follows : (Discipline.grounded.simulation σ early count).Follows result results)
    (ended : ∀ world, result ≠ .error .outOfFuel world) :
    ∀ᶠ fuel in Filter.atTop, results fuel = result := by
  cases follows with
  | early world allowed => exact absurd rfl (ended world)
  | ok answer worlds ends => exact worlds.same ▸ ends
  | error fault worlds ends => exact worlds.same ▸ ends

namespace Flagged

/-- What one strategy ends with, another one that simulates it ends with, for strict callers
as well. -/
theorem exists_run_of_simulates {strategy strategy' : Strategy σ}
    (simulates : ∀ count,
      strategy.Simulates (Discipline.grounded.simulation σ True count) strategy')
    (host : Host σ) {world : World σ} (chained : world.heap.Chained) {method : Call}
    (named : (Request.call method).isGrounded world.heap = true) (strict : Bool)
    {result : EStateM.Result Fault (World σ) method.Answer}
    (ended : ∀ world, result ≠ .error .outOfFuel world)
    (runs : ∃ fuel, run strategy host.grounded fuel strict method world = result) :
    ∃ fuel, run strategy' host.grounded fuel strict method world = result := by
  obtain ⟨fuel, rfl⟩ := runs
  have reported : ∀ strategy : Strategy σ, ∀ fuel,
      run strategy host.grounded fuel strict method =
        run strategy host.grounded fuel false method >>= Call.report strict method :=
    fun strategy fuel => run_reports strategy host.grounded fuel strict method
  have sloppyEnds : ∀ after,
      run strategy host.grounded fuel false method world ≠ .error .outOfFuel after := by
    intro after early
    refine ended after ?_
    rw [reported, Exec.bind_apply, early]
  have follows := (run_dispatches trivial simulates host fuel world.heap.objects.size).method
    method (Request.within_grounded named) world world ⟨rfl, chained, Nat.le_refl _⟩
  obtain ⟨fuel', same⟩ : ∃ fuel', run strategy' host.grounded fuel' false method world =
      run strategy host.grounded fuel false method world :=
    (World.eventually_eq_of_follows follows sloppyEnds).exists
  refine ⟨fuel', ?_⟩
  rw [reported strategy, reported strategy', Exec.bind_apply, Exec.bind_apply, same]

/-- The methods that walk are those that run without flags. On every heap that programs reach,
each internal method ends with the same result, in the same world with the same record of the
functions that were called, whether ordinary objects walk along their chains for lookups or
leave them to the methods of their prototypes. -/
theorem run_recursive (host : Host σ) :
    (∀ fuel, run .walking host.recorded.grounded fuel false =
      Call.run host.recorded.grounded fuel) ∧
    ∀ {heap : Heap}, heap.IsReached → ∀ depth client (method : Call),
      (Request.call method).isGrounded heap = true → ∀ strict result,
        (∀ world, result ≠ .error .outOfFuel world) →
          ((∃ fuel, run .walking host.recorded.grounded fuel strict method
              ⟨heap, depth, client⟩ = result) ↔
            ∃ fuel, run .recursive host.recorded.grounded fuel strict method
              ⟨heap, depth, client⟩ = result) := by
  refine ⟨fun fuel => run_walking _ fuel, ?_⟩
  intro heap reached depth client method named strict result ended
  constructor
  · exact exists_run_of_simulates (fun _ => Strategy.walking_simulates_recursive) host.recorded
      reached.chained named strict ended
  · exact exists_run_of_simulates (fun _ => Strategy.recursive_simulates_walking) host.recorded
      reached.chained named strict ended

/-- Makes an object with a property, and one that inherits it. -/
def inheriting : Script Unit Unit :=
  .ask (.newObject 0 none false) fun _ =>
  .ask (.newObject 0 (some 0) false) fun _ =>
  .ask (.call (.createData 0 (.symbol ⟨0, none⟩) .null)) fun _ => .done ()

/-- The recursion finds an inherited property, as the walk does. -/
theorem run_recursive_inherited :
    let host : Host Unit := fun _ _ _ => .done (.ok .undefined)
    let heap := (Exec.reached (inheriting.grounded.run host.grounded 1)
      ⟨.start {}, 0, ()⟩).heap
    ∃ fuel after, run .recursive host.recorded.grounded fuel true
      (.getValue 1 (.symbol ⟨0, none⟩)) ⟨heap, 0, (), []⟩ = .ok (some .null) after := by
  intro host heap
  have reached : heap.IsReached := ⟨Unit, Unit, host, inheriting, {}, 1, (), rfl⟩
  have walks : ∃ after, run .walking host.recorded.grounded 1 true
      (.getValue 1 (.symbol ⟨0, none⟩)) ⟨heap, 0, (), []⟩ = .ok (some .null) after := by
    exact ⟨_, rfl⟩
  obtain ⟨after, walked⟩ := walks
  obtain ⟨fuel, same⟩ := ((run_recursive host).2 reached 0 ((), [])
    (.getValue 1 (.symbol ⟨0, none⟩)) rfl true (.ok (some .null) after) (fun _ => nofun)).mp
    ⟨1, walked⟩
  exact ⟨fuel, after, same⟩

end Flagged

end ObjectModel
