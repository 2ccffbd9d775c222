import ObjectModel.Proofs.Machine.Settings
import ObjectModel.Proofs.Machine.Watch
import ObjectModel.Proofs.Strict.Writes

/-!
Contract: the nesting limit only ever turns runs into range errors.

A run is unrefused if no method of a proxy starts where the limit leaves no frame for it. Such a
run goes the same way wherever there is as much room: with greater limits
(`Script.run_roomier`), or fewer frames below it. How deep a program is, and what the limits are,
makes no other difference.

A method gives back the frames that it takes (`Call.depth_reached`), and no method gets deeper
than the limits of the proxies on the way (`Call.throughout_innerDepth_le`).

Owns: unrefused runs, and programs that are observed with all that they ask for and all functions
that are called.
-/

namespace ObjectModel

variable {σ τ α : Type}

/-! ### Unrefused moments -/

theorem Moment.isRefused_eq_false_iff {moment : Moment} :
    moment.isRefused = false ↔ ∀ id, moment.method.framed? = some id →
      moment.heap.isExotic id = true → moment.depth < (moment.heap.config id).maxProxyDepth := by
  constructor
  · intro unrefused id framed isExotic
    rw [isRefused, limit?_eq framed isExotic] at unrefused
    simpa using unrefused
  · intro entered
    rw [isRefused, limit?]
    cases framed : moment.method.framed? with
    | none => rfl
    | some id =>
        rw [Option.filter_some]
        split
        · rename_i isExotic
          simpa using entered id framed isExotic
        · rfl

/-- No method is refused a frame. -/
abbrev Call.Unrefused (host : Host σ) (fuel : Nat) (method : Call) (world : World σ) : Prop :=
  method.Throughout (fun moment => !moment.isRefused) host fuel world

/-- No method that the script asks for, or that is called on the way, is refused a frame. -/
abbrev Script.Unrefused (host : Host σ) (fuel : Nat) (script : Script σ α)
    (world : World σ) : Prop :=
  script.Throughout (fun moment => !moment.isRefused) host fuel world

/-- An unrefused run starts with a method that is not refused. -/
theorem Call.isRefused_eq_false {host : Host σ} {fuel : Nat} {method : Call} {world : World σ}
    (unrefused : method.Unrefused host (fuel + 1) world) :
    Moment.isRefused ⟨method, world.heap, world.depth⟩ = false := by
  rw [← Bool.not_eq_true]
  intro isRefused
  simp [Call.Unrefused, Call.Throughout, Exec.Unstopped, Exec.reached, Call.runWatched,
    Exec.watched, World.watched, isRefused] at unrefused

/-- A method that is not refused is taken. -/
theorem Call.runWatched_unrefused (host : Host σ) (fuel : Nat) {method : Call}
    {world : World (σ × Option Moment)}
    (unrefused : Moment.isRefused ⟨method, world.heap, world.depth⟩ = false) :
    Call.runWatched (fun moment => !moment.isRefused) host (fuel + 1) method world =
      Call.step (host.beside (Option Moment))
        (Call.runWatched (fun moment => !moment.isRefused) host fuel) method world := by
  show Exec.watched _ _ _ _ = _
  rw [Exec.watched, if_pos (by rw [unrefused]; rfl)]

section Shadows

variable {room : Nat} {exact : Prop} {view : τ → σ} {depth : Nat} {allowed : Request → Prop}

/-- With as much room there is a frame still. -/
theorem World.Shadows.unrefused {left : World (σ × Option Moment)}
    {right : World (τ × Option Moment)}
    (worlds : World.Shadows room exact (Prod.map view id) depth left right) {method : Call}
    (unrefused : Moment.isRefused ⟨method, left.heap, left.depth⟩ = false) :
    Moment.isRefused ⟨method, right.heap, right.depth⟩ = false := by
  rw [Moment.isRefused_eq_false_iff] at unrefused ⊢
  intro id framed isExotic
  have resembles := worlds.heap.resembles fun _ => True
  have entered := unrefused id framed (by rwa [← resembles.isExotic_eq])
  have limit_le := worlds.heap.maxProxyDepth_le id
  simp only [worlds.left_depth] at entered
  simp only [worlds.right_depth]
  omega

/-- An unrefused run, and one with notes in its shadow, which is unrefused then. -/
theorem Call.unrefused_dispatches
    (admits : ∀ depth request, allowed request → (World.shadowSimulation (σ := σ) True room exact
      (Prod.map view id) depth).Admits request)
    {host : Host σ} {host' : Host τ} (hosts : Host.Annotates allowed view host host')
    (fuel : Nat) :
    (World.shadowSimulation True room exact (Prod.map view id) depth).Dispatches
      (Call.runWatched (fun moment => !moment.isRefused) host fuel)
      fun _ => Call.runWatched (fun moment => !moment.isRefused) host' fuel := by
  have similar : ∀ depth, (World.shadowSimulation True room exact (Prod.map view id)
      depth).SimilarHosts (host.beside (Option Moment)) (host'.beside (Option Moment)) :=
    fun depth code this arguments =>
      ((hosts code this arguments).beside _).shadows (admits depth)
  refine Call.watched_dispatches (fun _ => True) similar (fun _ => rfl)
    (fun _ worlds fuel method isExpected => ?_)
    (fun _ worlds method id isExpected framed isExotic => ⟨fun _ => trivial, fun refused => ?_⟩)
    (fun _ _ => trivial) fuel trivial
  · rw [Bool.not_eq_true'] at isExpected
    rw [Call.runWatched, Exec.watched, worlds.unrefused isExpected]
    rfl
  · rw [Bool.not_eq_true', Moment.isRefused_eq_false_iff] at isExpected
    exact absurd (isExpected id framed isExotic) (Nat.not_lt.mpr refused)

/-- The same world with notes, and with more room: fewer frames, or greater limits. -/
structure World.Roomier (room : Nat) (exact : Prop) (view : τ → σ) (left : World σ)
    (right : World τ) : Prop where
  heap : left.heap.Roomier room right.heap
  heap_eq : exact → right.heap = left.heap
  depth_eq : left.depth = right.depth + room
  client_eq : left.client = view right.client

/-- What is unrefused ends the same way where there is more room, and is unrefused there. -/
theorem Exec.matches_of_unrefused {watched : Exec (σ × Option Moment) α}
    {watched' : Exec (τ × Option Moment) α} {plain : Exec σ α} {plain' : Exec τ α}
    {world : World σ} {world' : World τ} (worlds : World.Roomier room exact view world world')
    (agrees : (World.shadowSimulation True room exact (Prod.map view id) world'.depth).Agrees
      watched fun _ => watched')
    (watches : (World.watchSimulation σ True world.depth).Agrees watched fun _ => plain)
    (watches' : (World.watchSimulation τ True world'.depth).Agrees watched' fun _ => plain')
    (unstopped : watched.Unstopped world) :
    watched'.Unstopped world' ∧
      Matches (World.Roomier room exact view) (plain world) (plain' world') := by
  have shadows : World.Shadows room exact (Prod.map view id) world'.depth world.watched
      world'.watched :=
    { heap := worlds.heap
      heap_eq := worlds.heap_eq
      left_depth := worlds.depth_eq
      right_depth := rfl
      client_eq := Prod.ext worlds.client_eq rfl }
  have plains : ∀ {left : World (σ × Option Moment)} {right : World (τ × Option Moment)},
      World.Shadows room exact (Prod.map view id) world'.depth left right →
        World.Roomier room exact view left.unwatched right.unwatched := fun shadows =>
    { heap := shadows.heap
      heap_eq := shadows.heap_eq
      depth_eq := shadows.left_depth.trans (congrArg (· + room) shadows.right_depth.symm)
      client_eq := congrArg Prod.fst shadows.client_eq }
  have results := Exec.matches_of_unstopped agrees shadows fun _ => unstopped
  have unstopped' : watched'.Unstopped world' :=
    (congrArg Prod.snd (Exec.client_eq_of_matches results)).symm.trans unstopped
  refine ⟨unstopped', ?_⟩
  rw [← Exec.unwatched_eq watches unstopped, ← Exec.unwatched_eq watches' unstopped']
  generalize watched world.watched = result, watched' world'.watched = result' at results
  cases results with
  | ok answer shadows => exact .ok answer (plains shadows)
  | error fault shadows => exact .error fault (plains shadows)

end Shadows

/-! ### Depth -/

/-- How deep a method runs: in a frame of its own, if it enters one. -/
def Moment.innerDepth (moment : Moment) : Nat :=
  if moment.limit?.any (moment.depth < ·) then moment.depth + 1 else moment.depth

theorem Moment.innerDepth_le {moment : Moment} {limit : Nat} (depth_le : moment.depth ≤ limit)
    (limited : moment.limit?.all (· ≤ limit) = true) : moment.innerDepth ≤ limit := by
  unfold innerDepth
  cases found : moment.limit? with
  | none => exact depth_le
  | some own =>
      rw [found] at limited
      have own_le : own ≤ limit := of_decide_eq_true limited
      rw [Option.any_some]
      split
      · rename_i entered
        exact Nat.le_trans (of_decide_eq_true entered) own_le
      · exact depth_le

/-- At the limit a method of a proxy does nothing. -/
theorem Call.step_refused (host : Host σ) (dispatch : Dispatch σ) {method : Call}
    {world : World σ} {proxy : ObjectId} (framed : method.framed? = some proxy)
    (isExotic : world.heap.isExotic proxy = true)
    (refused : (world.heap.config proxy).maxProxyDepth ≤ world.depth) :
    Call.step host dispatch method world = .error (.error (.range .nestingLimit)) world := by
  have refusedFrame : ∀ {α : Type} (exotic ordinary : Exec σ α),
      Machine.byKind proxy exotic ordinary world =
        .error (.error (.range .nestingLimit)) world := by
    intro α exotic ordinary
    rw [Machine.byKind_exotic isExotic, Exec.inProxyFrame, if_neg (Nat.not_lt.mpr refused)]
  cases method with
  | call id this arguments => cases framed
  | ownKeys id strings symbols =>
      cases framed
      rw [step, Exec.bind_apply, refusedFrame]
  | _ =>
      cases framed
      exact refusedFrame _ _

/-- A method gives back every frame that it took, however it ends. -/
theorem Call.depth_reached (host : Host σ) (fuel : Nat) (method : Call) (world : World σ) :
    (Exec.reached (Call.run host fuel method) world).depth = world.depth := by
  have dispatches : (World.watchSimulation σ False world.depth).Dispatches
      (Call.runWatched (fun _ => true) host fuel) fun _ => Call.run host fuel :=
    Call.runWatched_dispatches (fun _ never => by cases never) host fuel world.depth
  have results := Exec.matches_of_unstopped (dispatches.method method method.within_seeing)
    world.watched_shadows False.elim
  unfold Exec.reached
  generalize Call.runWatched _ host fuel method world.watched = result,
    Call.run host fuel method world = result' at results
  cases results with
  | ok answer worlds => exact worlds.right_depth
  | error fault worlds => exact worlds.right_depth

/-- If no proxy that is met has a greater limit, no method runs deeper. -/
theorem Call.throughout_innerDepth_le {host : Host σ} {fuel limit : Nat} {method : Call}
    {world : World σ} (depth_le : world.depth ≤ limit)
    (limited : method.Throughout (fun moment => moment.limit?.all (· ≤ limit)) host fuel world) :
    method.Throughout (fun moment => moment.innerDepth ≤ limit) host fuel world := by
  have hosts : ∀ depth, (World.shadowSimulation (σ := σ) True 0 True (Prod.map id id)
      depth).SimilarHosts (host.beside (Option Moment)) (host.beside (Option Moment)) :=
    fun depth code this arguments =>
      ((host code this arguments).asks_any.annotates.beside _).shadows fun request _ =>
        World.admits_of_exact trivial request
  have dispatches : (World.shadowSimulation True 0 True (Prod.map id id) world.depth).Dispatches
      (Call.runWatched (fun moment => moment.limit?.all (· ≤ limit)) host fuel)
      fun _ => Call.runWatched (fun moment => moment.innerDepth ≤ limit) host fuel := by
    refine Call.watched_dispatches (fun depth => depth ≤ limit) hosts (fun _ => rfl)
      (@fun _ left right valid worlds fuel method isExpected => ?_)
      (@fun _ left right valid worlds method id isExpected framed isExotic =>
        ⟨fun entered => ?_, fun refused => ?_⟩)
      (fun _ _ => trivial) fuel depth_le
    · have shallow : Moment.innerDepth ⟨method, right.heap, right.depth⟩ ≤ limit := by
        refine Moment.innerDepth_le (worlds.right_depth.trans_le valid) ?_
        rw [worlds.heap_eq trivial]
        exact isExpected
      rw [Call.runWatched, Exec.watched]
      exact if_pos (decide_eq_true shallow)
    · rw [Moment.limit?_eq framed isExotic] at isExpected
      rw [worlds.left_depth] at entered
      exact Nat.le_trans entered (of_decide_eq_true isExpected)
    · rw [worlds.heap_eq trivial, worlds.right_depth]
      exact refused.trans_eq worlds.left_depth
  have started : World.Shadows 0 True (Prod.map id id) world.depth world.watched world.watched :=
    ⟨.refl 0 world.heap, fun _ => rfl, rfl, rfl, rfl⟩
  have results := Exec.matches_of_unstopped (dispatches.method method method.within_seeing) started
    fun _ => limited
  have notes := congrArg Prod.snd (Exec.client_eq_of_matches results)
  exact notes.symm.trans limited

/-! ### Programs with more room -/

/-- What a program may ask for that neither steps shapes nor looks at the whole heap, where it
would find the limits. -/
abbrev Scope.withoutStorage : Scope := .seeing False

theorem World.admits_withoutStorage {stops : Prop} {room depth : Nat}
    {view : τ → σ × Option Moment} (request : Request) (within : request.Within .withoutStorage) :
    (World.shadowSimulation stops room False view depth).Admits request :=
  Simulation.admits_of_within within

/-- An unrefused program does the same with notes and more room. -/
theorem Script.run_annotated {view : τ → σ} {host : Host σ} {host' : Host τ}
    (hosts : Host.Annotates (·.Within .withoutStorage) view host host') {script : Script σ α}
    {script' : Script τ α}
    (scripts : Script.Annotates (·.Within .withoutStorage) view script script') {fuel : Nat}
    {world : World σ} {world' : World τ} (worlds : World.Roomier 0 False view world world')
    (unrefused : script.Unrefused host fuel world) :
    script'.Unrefused host' fuel world' ∧
      Matches (World.Roomier 0 False view) (script.run host fuel world)
        (script'.run host' fuel world') := by
  refine Exec.matches_of_unrefused worlds ?_
    (script.runWatched_agrees (fun _ _ => trivial) host fuel _)
    (script'.runWatched_agrees (fun _ _ => trivial) host' fuel _) unrefused
  exact (Call.unrefused_dispatches (fun _ => World.admits_withoutStorage) hosts fuel).exec_agrees
    ((scripts.beside _).shadows World.admits_withoutStorage)

/-! ### Observed programs -/

/-- The program with every request and its answer written down, and beside them every function
that is called. -/
def Script.observed (script : Script σ α) : Script ((σ × List Reply) × List FunctionCall) α :=
  script.transcribed.besideRecord

def Host.observed (host : Host σ) : Host ((σ × List Reply) × List FunctionCall) :=
  host.transcribed.recorded

theorem Script.Asks.annotates_observed {allowed : Request → Prop} {script : Script σ α}
    (asks : script.Asks allowed) :
    Script.Annotates allowed (fun state => state.1.1) script script.observed := by
  induction asks with
  | done result => exact .done result
  | ask request isAllowed rest inductionHypothesis =>
      exact .ask request isAllowed fun answer => .note (fun _ => rfl) (inductionHypothesis answer)
  | look rest inductionHypothesis => exact .look fun state => inductionHypothesis state.1.1
  | update change rest inductionHypothesis => exact .update (fun _ => rfl) inductionHypothesis

theorem Script.Asks.observed {allowed : Request → Prop} {script : Script σ α}
    (asks : script.Asks allowed) : script.observed.Asks allowed := by
  induction asks with
  | done result => exact .done result
  | ask request isAllowed rest inductionHypothesis =>
      exact .ask request isAllowed fun answer => .update _ (inductionHypothesis answer)
  | look rest inductionHypothesis => exact .look fun state => inductionHypothesis state.1.1
  | update change rest inductionHypothesis => exact .update _ inductionHypothesis

theorem Host.Asks.annotates_observed {allowed : Request → Prop} {host : Host σ}
    (asks : host.Asks allowed) :
    Host.Annotates allowed (fun state => state.1.1) host host.observed :=
  fun code this arguments => .note (fun _ => rfl) (asks code this arguments).annotates_observed

theorem Host.Asks.observed {allowed : Request → Prop} {host : Host σ}
    (asks : host.Asks allowed) : host.observed.Asks allowed :=
  fun code this arguments => .update _ (asks code this arguments).observed

section Runs

variable {host : Host σ} (hostWithin : host.IsWithin .withoutStorage) {script : Script σ α}
  (scriptWithin : script.IsWithin .withoutStorage)

include hostWithin scriptWithin

/-- A program that is refused no frame is refused none under greater limits, in stores that are
otherwise the same. It ends alike then, in the same heap but for the limits, has got the same
replies to everything that was asked on the way, and the same functions were called with the
same arguments. -/
theorem Script.run_roomier {heap heap' : Heap} (roomier : heap.Roomier 0 heap') {fuel depth : Nat}
    {state : σ} (unrefused : script.Unrefused host fuel ⟨heap, depth, state⟩) :
    let plain := script.run host fuel
    let observed := script.observed.run host.observed fuel
    (script.Unrefused host fuel ⟨heap', depth, state⟩ ∧
      Exec.outcome plain ⟨heap', depth, state⟩ = Exec.outcome plain ⟨heap, depth, state⟩ ∧
      (Exec.reached plain ⟨heap', depth, state⟩).client =
        (Exec.reached plain ⟨heap, depth, state⟩).client ∧
      (Exec.reached plain ⟨heap, depth, state⟩).heap.Roomier 0
        (Exec.reached plain ⟨heap', depth, state⟩).heap) ∧
    (script.observed.Unrefused host.observed fuel ⟨heap', depth, ((state, []), [])⟩ ∧
      Exec.outcome observed ⟨heap', depth, ((state, []), [])⟩ =
        Exec.outcome observed ⟨heap, depth, ((state, []), [])⟩ ∧
      (Exec.reached observed ⟨heap', depth, ((state, []), [])⟩).client =
        (Exec.reached observed ⟨heap, depth, ((state, []), [])⟩).client) := by
  have ends : ∀ {σ : Type} {first second : Exec σ α} {world world' : World σ},
      Matches (World.Roomier 0 False id) (first world) (second world') →
        Exec.outcome second world' = Exec.outcome first world ∧
          (Exec.reached second world').client = (Exec.reached first world).client ∧
          (Exec.reached first world).heap.Roomier 0 (Exec.reached second world').heap := by
    intro σ first second world world' results
    unfold Exec.outcome Exec.reached
    generalize first world = result, second world' = result' at results
    cases results with
    | ok answer worlds => exact ⟨rfl, worlds.client_eq.symm, worlds.heap⟩
    | error fault worlds => exact ⟨rfl, worlds.client_eq.symm, worlds.heap⟩
  have worlds : ∀ {σ : Type} (state : σ), World.Roomier 0 False id
      ⟨heap, depth, state⟩ ⟨heap', depth, state⟩ :=
    fun _ => ⟨roomier, False.elim, rfl, rfl⟩
  have hostAsks : host.Asks (·.Within .withoutStorage) :=
    fun code this arguments => (hostWithin code this arguments).asks
  obtain ⟨unrefusedNow, results⟩ := run_annotated hostAsks.annotates
    scriptWithin.asks.annotates (worlds state) unrefused
  -- observing the program under the old limits changes nothing
  have watching : World.Roomier 0 False (fun state => state.1.1) ⟨heap, depth, state⟩
      ⟨heap, depth, ((state, ([] : List Reply)), ([] : List FunctionCall))⟩ :=
    ⟨.refl 0 heap, False.elim, rfl, rfl⟩
  obtain ⟨observedUnrefused, -⟩ := run_annotated hostAsks.annotates_observed
    scriptWithin.asks.annotates_observed watching unrefused
  obtain ⟨unrefusedNow', results'⟩ := run_annotated hostAsks.observed.annotates
    scriptWithin.asks.observed.annotates (worlds ((state, []), [])) observedUnrefused
  obtain ⟨sameOutcome, sameClient, heaps⟩ := ends results
  obtain ⟨sameOutcome', sameClient', -⟩ := ends results'
  exact ⟨⟨unrefusedNow, sameOutcome, sameClient, heaps⟩, unrefusedNow', sameOutcome',
    sameClient'⟩

end Runs

/-- A store alone, with a greater limit. -/
theorem Heap.roomier_start (config : Config) {limit : Nat}
    (limit_le : config.maxProxyDepth ≤ limit) :
    (start config).Roomier 0 (start { config with maxProxyDepth := limit }) := by
  have roomier : (start config).Roomier 0 ((start config).withLimits fun _ => limit) :=
    roomier_withLimits fun store inRange => by
      obtain rfl : store = 0 := Nat.lt_one_iff.mp inRange
      exact limit_le
  exact roomier

/-- Asks a proxy of a proxy for a property. -/
def Script.throughTwoProxies : Script Unit (Except Error Bool) :=
  .ask (.newObject 0 none false) fun _ =>
  .ask (.newObject 0 none false) fun _ =>
  .ask (.newProxy 0 0 1) fun _ =>
  .ask (.newProxy 0 2 1) fun _ =>
  .ask (.call (.has 3 (.symbol ⟨0, none⟩))) fun answer => .done answer

/-- Where two frames are enough, the limit may as well be greater. -/
theorem Script.run_roomier_twoProxies :
    let host : Host Unit := fun _ _ _ => .done (.ok .undefined)
    let narrow : Config := { maxProxyDepth := 2 }
    throughTwoProxies.Unrefused host 4 ⟨.start narrow, 0, ()⟩ ∧
      throughTwoProxies.Unrefused host 4 ⟨.start {}, 0, ()⟩ ∧
      Exec.outcome (throughTwoProxies.run host 4) ⟨.start {}, 0, ()⟩ = .ok (.ok false) := by
  intro host narrow
  have hostWithin : host.IsWithin .withoutStorage := fun _ _ _ => .done _
  have scriptWithin : throughTwoProxies.IsWithin .withoutStorage := by
    iterate 5 refine .ask _ (by trivial) fun _ => ?_
    exact .done _
  have roomier : (Heap.start narrow).Roomier 0 (.start {}) :=
    Heap.roomier_start narrow (by decide)
  have unrefused : throughTwoProxies.Unrefused host 4 ⟨.start narrow, 0, ()⟩ := by
    decide +kernel
  have answered : Exec.outcome (throughTwoProxies.run host 4) ⟨.start narrow, 0, ()⟩ =
      .ok (.ok false) := by decide +kernel
  obtain ⟨⟨unrefusedNow, same, -⟩, -⟩ := run_roomier hostWithin scriptWithin roomier unrefused
  exact ⟨unrefused, unrefusedNow, same.trans answered⟩

end ObjectModel
