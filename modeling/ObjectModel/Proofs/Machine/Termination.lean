import ObjectModel.Proofs.Heap.Built
import ObjectModel.Proofs.Machine.Nesting
import ObjectModel.Proofs.Machine.Recursion

/-!
Contract: without user code every method ends.

A computation settles (`Exec.Settles`) if, with fuel enough, it always ends the same way: with
an answer, with a type error, or with the error of the nesting limit. Where no object is a
function, traps, getters and setters are missing or of no use, so proxies can only leave methods
to each other and to their targets. What is left of the nesting limit bounds that: inside a
frame there is less of it, and outside of frames a method gets to an exotic object at once, since
walks along prototypes end. Calls take no frame, but proxies are younger than their targets.

Owns: what methods do where no object is a function.
-/

namespace ObjectModel

open Filter
open Heap (Command)

variable {σ α β : Type}

/-! ### Computations that settle -/

/-- An answer, a type error or the error of the nesting limit, in a world like this. -/
inductive Exec.Ends (kept : World σ → Prop) : EStateM.Result Fault (World σ) α → Prop
  | answer (answer : α) {world : World σ} (keeps : kept world) : Ends kept (.ok answer world)
  | typeError (fault : TypeFault) {world : World σ} (keeps : kept world) :
      Ends kept (.error (.error (.type fault)) world)
  | nestingLimit {world : World σ} (keeps : kept world) :
      Ends kept (.error (.error (.range .nestingLimit)) world)

/-- With fuel enough a computation ends, always the same way. -/
def Exec.Settles (kept : World σ → Prop) (results : Nat → EStateM.Result Fault (World σ) α) :
    Prop :=
  ∃ ending, (∀ᶠ fuel in atTop, results fuel = ending) ∧ Ends kept ending

namespace Exec.Settles

variable {kept : World σ → Prop} {world : World σ}

/-- Some of the fuel may be taken away. -/
theorem of_succ {results : Nat → EStateM.Result Fault (World σ) α}
    (settles : Settles kept fun fuel => results (fuel + 1)) : Settles kept results := by
  obtain ⟨ending, ended, ends⟩ := settles
  refine ⟨ending, ?_, ends⟩
  rwa [← map_add_atTop_eq_nat 1, eventually_map]

theorem mono {kept' : World σ → Prop} {results : Nat → EStateM.Result Fault (World σ) α}
    (settles : Settles kept results) (implies : ∀ world, kept world → kept' world) :
    Settles kept' results := by
  obtain ⟨ending, ended, ends⟩ := settles
  refine ⟨ending, ended, ?_⟩
  cases ends with
  | answer answer keeps => exact .answer answer (implies _ keeps)
  | typeError fault keeps => exact .typeError fault (implies _ keeps)
  | nestingLimit keeps => exact .nestingLimit (implies _ keeps)

/-- A computation on the heap as it is now. -/
theorem withHeap {next : Nat → Heap → Exec σ α}
    (settles : Settles kept fun fuel => next fuel world.heap world) :
    Settles kept fun fuel => (Exec.heap >>= next fuel) world :=
  settles

theorem pure (keeps : kept world) (answer : α) :
    Settles kept fun _ => (Pure.pure answer : Exec σ α) world :=
  ⟨_, .of_forall fun _ => rfl, .answer answer keeps⟩

theorem typeError (keeps : kept world) (fault : TypeFault) :
    Settles kept fun _ => (Exec.typeError fault : Exec σ α) world :=
  ⟨_, .of_forall fun _ => rfl, .typeError fault keeps⟩

theorem bind {first : Nat → Exec σ α} {next : Nat → α → Exec σ β}
    (settles : Settles kept fun fuel => first fuel world)
    (rest : ∀ answer world, kept world → Settles kept fun fuel => next fuel answer world) :
    Settles kept fun fuel => (first fuel >>= next fuel) world := by
  simp only [bind_apply]
  obtain ⟨ending, ended, ends⟩ := settles
  cases ends with
  | answer answer keeps =>
      exact (rest answer _ keeps).imp fun ending both =>
        ⟨(ended.and both.1).mono fun fuel both => by simp only [both.1, both.2], both.2⟩
  | typeError fault keeps =>
      exact ⟨_, ended.mono fun fuel ended => by simp only [ended], .typeError fault keeps⟩
  | nestingLimit keeps =>
      exact ⟨_, ended.mono fun fuel ended => by simp only [ended], .nestingLimit keeps⟩

/-- The world is changed when the computation has ended. -/
theorem andFinally {kept' : World σ → Prop} {computation : Nat → Exec σ α}
    (settles : Settles kept' fun fuel => computation fuel world) {close : World σ → World σ}
    (closes : ∀ world, kept' world → kept (close world)) :
    Settles kept fun fuel => (computation fuel).andFinally close world := by
  unfold Exec.andFinally
  obtain ⟨ending, ended, ends⟩ := settles
  cases ends with
  | answer answer keeps =>
      exact ⟨_, ended.mono fun fuel ended => by simp only [ended],
        .answer answer (closes _ keeps)⟩
  | typeError fault keeps =>
      exact ⟨_, ended.mono fun fuel ended => by simp only [ended],
        .typeError fault (closes _ keeps)⟩
  | nestingLimit keeps =>
      exact ⟨_, ended.mono fun fuel ended => by simp only [ended],
        .nestingLimit (closes _ keeps)⟩

end Exec.Settles

/-! ### Worlds without functions -/

/-- No object is a function, proxies are younger than their targets, and they nest no deeper
than the bound. There are some objects at least. -/
structure Heap.Codeless (count bound : Nat) (heap : Heap) : Prop where
  chained : heap.Chained
  count_le : count ≤ heap.objects.size
  targetsFirst : heap.TargetsFirst
  limit_le : ∀ store, heap.limit store ≤ bound
  notFunction : ∀ id name body, heap.kind id ≠ .function name body

namespace Heap.Codeless

variable {count bound : Nat} {heap : Heap} (codeless : heap.Codeless count bound)

include codeless

theorem command (command : Command) (keeps : command.KeepsKinds)
    (within : command.Within (.grounded count) heap) :
    (command.run heap).1.Codeless count bound where
  chained := command.chained codeless.chained
    (Command.namesPrototypes_of_within codeless.count_le within)
  count_le := Nat.le_trans codeless.count_le (command.size_le codeless.chained.wellFormed)
  targetsFirst := codeless.targetsFirst.congr (Command.kind_eq codeless.chained.wellFormed keeps)
  limit_le := Command.limit_le codeless.limit_le keeps
  notFunction := fun id name body => by
    rw [Command.kind_eq codeless.chained.wellFormed keeps]
    exact codeless.notFunction id name body

/-- Nothing can be called. -/
theorem isFunction_eq_false (value : Value) : heap.isFunction value = false := by
  have within : ∀ steps id, heap.isCallableWithin steps id = false := by
    intro steps
    induction steps with
    | zero => exact fun _ => rfl
    | succ steps inductionHypothesis =>
        intro id
        rw [isCallableWithin]
        cases kind : heap.kind id with
        | ordinary => rfl
        | function name body => exact absurd kind (codeless.notFunction id name body)
        | proxy link => exact inductionHypothesis link.target
  cases value with
  | object id => exact within _ id
  | _ => rfl

end Heap.Codeless

/-- A codeless world at this depth. -/
structure World.Codeless (count bound depth : Nat) (world : World σ) : Prop where
  heap : world.heap.Codeless count bound
  depth_eq : world.depth = depth

namespace World.Codeless

open Exec (Settles)

variable {count bound depth : Nat} {world : World σ} (codeless : world.Codeless count bound depth)

include codeless

/-- A step that is a command keeps the world codeless. -/
theorem onHeap (command : Command) (keeps : command.KeepsKinds)
    (within : command.Within (.grounded count) world.heap) {step : Heap → Heap × α}
    (same : (step world.heap).1 = (command.run world.heap).1) :
    Settles (World.Codeless count bound depth) fun _ => Exec.onHeap step world := by
  refine ⟨_, .of_forall fun _ => rfl, .answer _ ⟨?_, codeless.depth_eq⟩⟩
  exact same ▸ codeless.heap.command command keeps within

theorem onHeapOrRaise (command : Command) (keeps : command.KeepsKinds)
    (within : command.Within (.grounded count) world.heap)
    {step : Heap → Heap × Except TypeFault α}
    (same : (step world.heap).1 = (command.run world.heap).1) :
    Settles (World.Codeless count bound depth) fun _ => Exec.onHeapOrRaise step world := by
  refine .bind (codeless.onHeap command keeps within same) fun result world codeless => ?_
  cases result with
  | ok answer => exact .pure codeless answer
  | error fault => exact .typeError codeless fault

/-- With objects in hand, the heap has the same content. -/
theorem holding (objects : List ObjectId) {computation : Nat → Exec σ α}
    (settles : ∀ held : World σ, held.Codeless count bound depth →
      held.heap.SameContent world.heap →
        Settles (World.Codeless count bound depth) fun fuel => computation fuel held) :
    Settles (World.Codeless count bound depth) fun fuel =>
      Exec.holding objects (computation fuel) world := by
  have held : World.Codeless count bound depth
      { world with heap := world.heap.holdAll objects } :=
    ⟨codeless.heap.command (.holdAll objects) trivial trivial, codeless.depth_eq⟩
  exact (settles _ held (Heap.sameContent_holdAll _ _)).andFinally fun world codeless =>
    ⟨codeless.heap.command (.releaseAll objects) trivial trivial, codeless.depth_eq⟩

/-- In a frame there is less room. -/
theorem inProxyFrame (proxy : ObjectId) {computation : Nat → Exec σ α}
    (settles : depth < bound → ∀ world : World σ, world.Codeless count bound (depth + 1) →
      Settles (World.Codeless count bound (depth + 1)) fun fuel => computation fuel world) :
    Settles (World.Codeless count bound depth) fun fuel =>
      Exec.inProxyFrame proxy (computation fuel) world := by
  unfold Exec.inProxyFrame
  by_cases entered : world.depth < (world.heap.config proxy).maxProxyDepth
  · have isBelow : depth < bound :=
      codeless.depth_eq ▸ Nat.lt_of_lt_of_le entered (codeless.heap.limit_le _)
    have deeper : World.Codeless count bound (depth + 1)
        { world with depth := world.depth + 1 } :=
      ⟨codeless.heap, congrArg Nat.succ codeless.depth_eq⟩
    simp only [if_pos entered]
    exact (settles isBelow _ deeper).andFinally fun world codeless =>
      ⟨codeless.heap, by simp [codeless.depth_eq]⟩
  · simp only [if_neg entered]
    exact ⟨_, .of_forall fun _ => rfl, .nestingLimit codeless⟩

end World.Codeless

/-! ### Methods of proxies -/

/-- Methods that get fuel settle at this depth. -/
def MethodsSettle (count bound depth : Nat) (dispatch : Nat → Dispatch σ) : Prop :=
  ∀ method : Call, method.Within (.grounded count) → ∀ world : World σ,
    world.Codeless count bound depth →
      Exec.Settles (World.Codeless count bound depth) fun fuel => dispatch fuel method world

section Proxies

open Exec (Settles)

variable {count bound depth : Nat} {dispatch : Nat → Dispatch σ}
  (methods : MethodsSettle count bound depth dispatch)

include methods

/-- No trap can be called, so the target answers. -/
theorem throughTrap_settles {world : World σ} (codeless : world.Codeless count bound depth)
    (proxy : ObjectId) (trap : Trap) {forward : Nat → ObjectId → Exec σ α}
    {consult : Nat → ObjectId → (List Value → Exec σ Value) → Exec σ α}
    (forwards : ∀ target (world : World σ), world.Codeless count bound depth →
      Settles (World.Codeless count bound depth) fun fuel => forward fuel target world) :
    Settles (World.Codeless count bound depth) fun fuel =>
      Machine.throughTrap (dispatch fuel) proxy trap (forward fuel) (consult fuel) world := by
  unfold Machine.throughTrap Machine.findTrap
  simp only [bind_assoc]
  refine .withHeap ?_
  cases world.heap.proxy? proxy with
  | none => exact .typeError codeless _
  | some link =>
      cases revoked : link.revoked with
      | true =>
          simp only [revoked, if_true]
          exact .typeError codeless _
      | false =>
          simp only [revoked, Bool.false_eq_true, if_false, bind_assoc]
          refine .bind (methods (.getValue link.handler (.ofString trap.name)) trivial world
            codeless) fun found world codeless => ?_
          generalize found.getD .undefined = value
          have notFunction := codeless.heap.isFunction_eq_false value
          split
          · exact forwards link.target world codeless
          · exact forwards link.target world codeless
          · simp only [bind_assoc]
            refine .withHeap ?_
            simp only [notFunction, Bool.false_eq_true, if_false]
            exact .typeError codeless _

end Proxies

section Frames

open Exec (Settles)

variable {count bound depth : Nat} {dispatch : Nat → Dispatch σ}
  (methods : depth < bound → MethodsSettle count bound (depth + 1) dispatch) {world : World σ}
  (codeless : world.Codeless count bound depth) {proxy : ObjectId}
  (isExotic : world.heap.isExotic proxy = true)

include methods codeless isExotic

/-- Inside a frame, the target is asked. -/
private theorem byKind_settles (trap : Trap) {forward : Nat → ObjectId → Exec σ α}
    {consult : Nat → ObjectId → (List Value → Exec σ Value) → Exec σ α} {ordinary : Nat → Exec σ α}
    (forwards : MethodsSettle count bound (depth + 1) dispatch → ∀ target (world : World σ),
      world.Codeless count bound (depth + 1) →
        Settles (World.Codeless count bound (depth + 1)) fun fuel => forward fuel target world) :
    Settles (World.Codeless count bound depth) fun fuel =>
      Machine.byKind proxy
        (Machine.throughTrap (dispatch fuel) proxy trap (forward fuel) (consult fuel))
        (ordinary fuel) world := by
  simp only [Machine.byKind_exotic isExotic]
  exact codeless.inProxyFrame proxy fun isBelow world codeless =>
    throughTrap_settles (methods isBelow) codeless proxy trap (forwards (methods isBelow))

/-- A method of a proxy settles if methods settle in frames. -/
theorem Call.step_settles_exotic (host : Host σ) {method : Call}
    (within : method.Within (.grounded count)) (framed : method.framed? = some proxy) :
    Settles (World.Codeless count bound depth) fun fuel =>
      Call.step host (dispatch fuel) method world := by
  cases method with
  | getPrototypeOf id =>
      cases framed
      exact byKind_settles methods codeless isExotic .getPrototypeOf
        fun methods target => methods (.getPrototypeOf target) trivial
  | setPrototypeOf id prototype =>
      cases framed
      exact byKind_settles methods codeless isExotic .setPrototypeOf
        fun methods target => methods (.setPrototypeOf target prototype) within
  | isExtensible id =>
      cases framed
      exact byKind_settles methods codeless isExotic .isExtensible
        fun methods target => methods (.isExtensible target) trivial
  | preventExtensions id =>
      cases framed
      exact byKind_settles methods codeless isExotic .preventExtensions
        fun methods target world codeless =>
          .bind (methods (.preventExtensions target) trivial world codeless)
            fun _ _ codeless => .pure codeless _
  | getOwnProperty id key =>
      cases framed
      exact byKind_settles methods codeless isExotic .getOwnProperty
        fun methods target => methods (.getOwnProperty target key) trivial
  | defineOwnProperty id key change =>
      cases framed
      exact byKind_settles methods codeless isExotic .defineProperty
        fun methods target world codeless =>
          .bind (methods (.defineOwnProperty target key change) trivial world codeless)
            fun _ _ codeless => .pure codeless _
  | has id key =>
      cases framed
      exact byKind_settles methods codeless isExotic .has
        fun methods target => methods (.has target key) trivial
  | get id key receiver =>
      cases framed
      exact byKind_settles methods codeless isExotic .get
        fun methods target world codeless =>
          .bind (methods (.get target key receiver) trivial world codeless)
            fun _ _ codeless => .pure codeless _
  | set id key value receiver =>
      cases framed
      exact byKind_settles methods codeless isExotic .set
        fun methods target world codeless =>
          .bind (methods (.set target key value receiver) trivial world codeless)
            fun _ _ codeless => .pure codeless _
  | delete id key =>
      cases framed
      exact byKind_settles methods codeless isExotic .delete
        fun methods target world codeless =>
          .bind (methods (.delete target key) trivial world codeless)
            fun _ _ codeless => .pure codeless _
  | ownKeys id strings symbols =>
      cases framed
      refine .bind ?_ fun _ _ codeless => .pure codeless _
      exact byKind_settles methods codeless isExotic .ownKeys
        fun methods target => methods (.allKeys target) trivial
  | call id this arguments => cases framed

end Frames

/-! ### Methods of all objects -/

/-- A lookup that leaves the rest of the search to an object leaves it to an exotic one. -/
theorem Heap.isExotic_of_findProperty {heap : Heap} {id next : ObjectId} {key : PropertyKey}
    (found : heap.findProperty id key = .exotic next) : heap.isExotic next = true := by
  have within : ∀ steps start,
      heap.searchChain key (heap.walkWithin steps start) = .exotic next →
        heap.isExotic next = true := by
    intro steps
    induction steps with
    | zero => exact fun _ found => by cases found
    | succ steps inductionHypothesis =>
        intro start found
        cases start with
        | none => cases found
        | some id =>
            rw [walkWithin] at found
            split at found
            · rename_i isExotic
              cases found
              exact isExotic
            · rw [searchChain] at found
              split at found
              · cases found
              · exact inductionHypothesis _ found
  exact within _ _ found

/-- The method searches no prototypes, and calls nothing. -/
def Call.isOwn : Call → Bool
  | .has _ _ | .get _ _ _ | .set _ _ _ _ | .call _ _ _ => false
  | _ => true

section Methods

open Exec (Settles)

variable {count bound depth : Nat} {host : Host σ}

theorem Call.run_settles_of_step {kept : World σ → Prop} {method : Call} {world : World σ}
    (settles : Settles kept fun fuel => Call.step host (Call.run host fuel) method world) :
    Settles kept fun fuel => Call.run host fuel method world :=
  settles.of_succ

variable {world : World σ} (codeless : world.Codeless count bound depth)

include codeless

/-- Calls go on from proxy to target until there is no function. -/
theorem Call.run_settles_call (id : ObjectId) (this : Value) (arguments : List Value) :
    Settles (World.Codeless count bound depth) fun fuel =>
      Call.run host fuel (.call id this arguments) world := by
  induction id using Nat.strong_induction_on with
  | _ id inductionHypothesis =>
      refine Call.run_settles_of_step (.withHeap ?_)
      cases kind : world.heap.kind id with
      | ordinary => exact .typeError codeless _
      | function name body => exact absurd kind (codeless.heap.notFunction id name body)
      | proxy link =>
          have isOlder := codeless.heap.targetsFirst id link (Heap.proxy?_eq_some.mpr kind)
          simp only
          split
          · exact .typeError codeless _
          · exact inductionHypothesis link.target isOlder

private theorem readSlot_settles (inHand : List ObjectId) (receiver : Value) (slot : Slot) :
    Settles (World.Codeless count bound depth) fun fuel =>
      Machine.readSlot (Call.run host fuel) inHand receiver slot world := by
  cases slot with
  | data value => exact .pure codeless _
  | accessor getter setter =>
      cases getter with
      | none => exact .pure codeless _
      | some getter =>
          exact codeless.holding _ fun world codeless _ =>
            Call.run_settles_call codeless getter receiver []

variable (inner : depth < bound → MethodsSettle count bound (depth + 1) (Call.run host))

include inner

theorem Call.run_settles_exotic {method : Call} (within : method.Within (.grounded count))
    {proxy : ObjectId} (framed : method.framed? = some proxy)
    (isExotic : world.heap.isExotic proxy = true) :
    Settles (World.Codeless count bound depth) fun fuel => Call.run host fuel method world :=
  Call.run_settles_of_step (Call.step_settles_exotic inner codeless isExotic host within framed)

/-- The exotic object at the end of a chain is in hand while it answers. -/
private theorem Call.run_settles_next (method : Call) (within : method.Within (.grounded count))
    {next : ObjectId} (framed : method.framed? = some next) {id : ObjectId} {key : PropertyKey}
    (found : world.heap.findProperty id key = .exotic next) :
    Settles (World.Codeless count bound depth) fun fuel =>
      Exec.holding [next] (Call.run host fuel method) world := by
  refine codeless.holding _ fun held codeless sameContent => ?_
  have isExotic : held.heap.isExotic next = true :=
    (Heap.isExotic_congr (sameContent.kind_eq next)).trans (Heap.isExotic_of_findProperty found)
  exact Call.run_settles_exotic codeless inner within framed isExotic

/-- An ordinary object answers these methods by itself. -/
theorem Call.run_settles_own {method : Call} (isOwn : method.isOwn = true)
    (within : method.Within (.grounded count)) :
    Settles (World.Codeless count bound depth) fun fuel => Call.run host fuel method world := by
  obtain ⟨id, framed⟩ : ∃ id, method.framed? = some id := by
    cases method with
    | call id this arguments => cases isOwn
    | _ => exact ⟨_, rfl⟩
  cases exotic : world.heap.isExotic id with
  | true => exact Call.run_settles_exotic codeless inner within framed exotic
  | false =>
      refine Call.run_settles_of_step ?_
      cases method with
      | getPrototypeOf _ | isExtensible _ | getOwnProperty _ _ =>
          cases framed
          simp only [Call.step, Machine.byKind_ordinary exotic]
          exact .pure codeless _
      | ownKeys id strings symbols =>
          cases framed
          refine .bind ?_ fun _ _ codeless => .pure codeless _
          simp only [Machine.byKind_ordinary exotic]
          exact .pure codeless _
      | setPrototypeOf id prototype =>
          cases framed
          simp only [Call.step, Machine.byKind_ordinary exotic]
          exact codeless.onHeap (.setPrototypeOf id prototype) trivial ⟨exotic, within⟩ rfl
      | preventExtensions id =>
          cases framed
          simp only [Call.step, Machine.byKind_ordinary exotic]
          exact codeless.onHeap (.preventExtensions id) trivial exotic rfl
      | defineOwnProperty id key change =>
          cases framed
          simp only [Call.step, Machine.byKind_ordinary exotic]
          exact codeless.onHeapOrRaise (.defineOwn id key change) trivial ⟨exotic, trivial⟩ rfl
      | delete id key =>
          cases framed
          simp only [Call.step, Machine.byKind_ordinary exotic]
          exact codeless.onHeap (.deleteOwn id key) trivial exotic rfl
      | has _ _ | get _ _ _ | set _ _ _ _ | call _ _ _ => cases isOwn

/-- The receiver of a write may be a proxy again. -/
private theorem setWithOwn_settles (own : Descriptor) (key : PropertyKey)
    (value receiver : Value) :
    Settles (World.Codeless count bound depth) fun fuel =>
      Machine.setWithOwn (Call.run host fuel) own key value receiver world := by
  unfold Machine.setWithOwn
  split
  · cases own.setter? with
    | some setter =>
        exact .bind (Call.run_settles_call codeless setter receiver [value])
          fun _ _ codeless => .pure codeless _
    | none => exact .pure codeless _
  split
  · exact .pure codeless _
  cases receiver with
  | object target =>
      have asked : Settles (World.Codeless count bound depth) fun fuel =>
          Call.run host fuel (.getOwnProperty target key) world :=
        Call.run_settles_own codeless inner rfl trivial
      refine .bind asked fun existing world codeless => ?_
      cases existing with
      | none => exact Call.run_settles_own codeless inner rfl trivial
      | some existing =>
          simp only
          split
          · exact .pure codeless _
          split
          · exact .pure codeless _
          refine .withHeap ?_
          split
          · rename_i isData
            rw [Bool.and_eq_true, Bool.not_eq_true'] at isData
            refine .bind (codeless.onHeap (.writeData target key value) trivial
              ⟨isData.1, False.elim⟩ rfl) fun _ _ codeless => .pure codeless _
          · exact codeless.holding _ fun world codeless _ =>
              Call.run_settles_own codeless inner rfl trivial
  | _ => exact .pure codeless _

/-- Where the chain does not answer, an exotic object does. -/
theorem Call.run_settles (method : Call) (within : method.Within (.grounded count)) :
    Settles (World.Codeless count bound depth) fun fuel => Call.run host fuel method world := by
  cases exotic : method.framed?.any world.heap.isExotic with
  | true =>
      obtain ⟨proxy, framed, isExotic⟩ := (Option.any_eq_true _ _).mp exotic
      exact Call.run_settles_exotic codeless inner within framed isExotic
  | false =>
      cases method with
      | has id key =>
          refine Call.run_settles_of_step ?_
          simp only [Call.step, Machine.byKind_ordinary exotic]
          refine .withHeap ?_
          cases found : world.heap.findProperty id key with
          | found holder attributes slot => exact .pure codeless _
          | exotic next =>
              exact Call.run_settles_next codeless inner (.has next key) trivial rfl found
          | missing => exact .pure codeless _
      | get id key receiver =>
          refine Call.run_settles_of_step ?_
          simp only [Call.step, Machine.byKind_ordinary exotic]
          refine .withHeap ?_
          cases found : world.heap.findProperty id key with
          | found holder attributes slot =>
              exact .bind (readSlot_settles codeless _ receiver slot) fun _ _ codeless =>
                .pure codeless _
          | exotic next =>
              exact Call.run_settles_next codeless inner (.get next key receiver) trivial rfl found
          | missing => exact .pure codeless _
      | set id key value receiver =>
          refine Call.run_settles_of_step ?_
          simp only [Call.step, Machine.byKind_ordinary exotic]
          refine .withHeap ?_
          cases found : world.heap.findProperty id key with
          | found holder attributes slot =>
              exact codeless.holding _ fun world codeless _ =>
                setWithOwn_settles codeless inner _ key value receiver
          | exotic next =>
              exact Call.run_settles_next codeless inner (.set next key value receiver) trivial rfl
                found
          | missing => exact setWithOwn_settles codeless inner _ key value receiver
      | call id this arguments => exact Call.run_settles_call codeless id this arguments
      | _ => exact Call.run_settles_own codeless inner rfl within

end Methods

/-- What is left of the bound on nesting decreases from frame to frame. -/
theorem Call.run_methodsSettle (host : Host σ) (count bound depth : Nat) :
    MethodsSettle count bound depth (Call.run host) := by
  obtain ⟨room, isRoom⟩ : ∃ room, bound ≤ depth + room := ⟨bound, Nat.le_add_left _ _⟩
  induction room generalizing depth with
  | zero =>
      exact fun method within world codeless => Call.run_settles codeless
        (fun isBelow => absurd isBelow (Nat.not_lt.mpr isRoom)) method within
  | succ room inductionHypothesis =>
      exact fun method within world codeless => Call.run_settles codeless
        (fun _ => inductionHypothesis (depth + 1) (by omega)) method within

/-! ### Runs -/

namespace Flagged

open Exec (Settles)

/-- A report is a type error at worst. -/
theorem report_settles {kept : World σ → Prop} {world : World σ} (keeps : kept world)
    (strict : Bool) (method : Call) (answer : method.Answer) :
    Settles kept fun _ => Call.report strict method answer world := by
  have verdicts : ∀ verdict : Verdict, Settles kept fun _ => Exec.report strict verdict world := by
    intro verdict
    cases verdict with
    | accepted => exact .pure keeps _
    | refused reason =>
        cases strict with
        | false => exact .pure keeps _
        | true => exact .typeError keeps _
  cases method with
  | preventExtensions _ | defineOwnProperty _ _ _ | set _ _ _ _ | delete _ _ =>
      exact verdicts answer
  | _ => exact .pure keeps _

/-- What settles for sloppy callers settles for strict ones. -/
theorem run_settles_for {kept : World σ → Prop} {strategy : Strategy σ} {host : Host σ}
    {method : Call} {world : World σ}
    (settles : Settles kept fun fuel => run strategy host fuel false method world)
    (strict : Bool) : Settles kept fun fuel => run strategy host fuel strict method world := by
  simp only [run_reports strategy host _ strict]
  exact settles.bind fun answer _ keeps => report_settles keeps strict method answer

section Codeless

variable {heap : Heap} (built : heap.IsBuilt)
  (noFunction : ∀ id name body, heap.kind id ≠ .function name body) {method : Call}
  (named : (Request.call method).isGrounded heap = true)

include built noFunction named

theorem run_walking_settles (host : Host σ) (depth : Nat) (client : σ) (strict : Bool) :
    Settles (fun after => after.depth = depth) fun fuel =>
      run .walking host fuel strict method ⟨heap, depth, client⟩ := by
  refine run_settles_for ?_ strict
  obtain ⟨bound, limit_le⟩ := heap.exists_limit_le
  have codeless : World.Codeless heap.objects.size bound depth ⟨heap, depth, client⟩ :=
    ⟨⟨built.chained, Nat.le_refl _, built.targetsFirst, limit_le, noFunction⟩, rfl⟩
  have settles := Call.run_methodsSettle host heap.objects.size bound depth method
    (Request.within_grounded named) _ codeless
  simp only [run_walking]
  exact settles.mono fun _ codeless => codeless.depth_eq

/-- The recursion along prototypes, which no chain bounds, ends as the walk does. -/
theorem run_recursive_settles (host : Host σ) (depth : Nat) (client : σ) (strict : Bool) :
    Settles (fun after => after.depth = depth) fun fuel =>
      run .recursive host.grounded fuel strict method ⟨heap, depth, client⟩ := by
  refine run_settles_for ?_ strict
  obtain ⟨ending, ended, ends⟩ :=
    run_walking_settles built noFunction named host.grounded depth client false
  obtain ⟨fuel, walked⟩ : ∃ fuel, run .walking host.grounded fuel false method
      ⟨heap, depth, client⟩ = ending := ended.exists
  have follows := (run_dispatches trivial (fun _ => Strategy.walking_simulates_recursive) host
    fuel heap.objects.size).method method (Request.within_grounded named) ⟨heap, depth, client⟩ _
      ⟨rfl, built.chained, Nat.le_refl _⟩
  rw [walked] at follows
  refine ⟨ending, World.eventually_eq_of_follows follows fun world early => ?_, ends⟩
  rw [early] at ends
  cases ends

end Codeless

/-! ### Depth -/

/-- What a strict caller is told changes nothing. -/
theorem reached_run (host : Host σ) (fuel : Nat) (strict : Bool) (method : Call)
    (world : World σ) :
    Exec.reached (run .walking host fuel strict method) world =
      Exec.reached (Call.run host fuel method) world := by
  have reported : ∀ (answer : method.Answer) (world : World σ),
      Exec.reached (Call.report strict method answer) world = world := by
    have verdicts : ∀ (verdict : Verdict) (world : World σ),
        Exec.reached (Exec.report strict verdict) world = world := by
      intro verdict world
      cases verdict <;> cases strict <;> rfl
    cases method with
    | preventExtensions _ | defineOwnProperty _ _ _ | set _ _ _ _ | delete _ _ => exact verdicts
    | _ => exact fun _ _ => rfl
  rw [run_reports .walking host fuel strict, run_walking]
  unfold Exec.reached at reported ⊢
  rw [Exec.bind_apply]
  cases Call.run host fuel method world with
  | ok answer after => exact reported answer after
  | error fault after => rfl

theorem run_refused (host : Host σ) (fuel : Nat) (strict : Bool) {method : Call}
    {world : World σ} {proxy : ObjectId} (framed : method.framed? = some proxy)
    (isExotic : world.heap.isExotic proxy = true)
    (refused : (world.heap.config proxy).maxProxyDepth ≤ world.depth) :
    run .walking host (fuel + 1) strict method world =
      .error (.error (.range .nestingLimit)) world := by
  rw [run_reports .walking host (fuel + 1) strict, run_walking, Exec.bind_apply, Call.run,
    Call.step_refused host _ framed isExotic refused]

/-- On heaps that are built without functions every method ends, with an answer, with a type
error or with the error of the nesting limit, whatever rings there are; the recursion along
prototypes ends as the walk does. On any heap, with any user code, a method that ends has given
back all the frames that it took. There is none for it where the depth has reached the limit of
the proxy's store, so methods never run deeper than the greatest limit. -/
theorem run_terminates (host : Host σ) :
    (∀ {heap : Heap}, heap.IsBuilt → (∀ id name body, heap.kind id ≠ .function name body) →
      ∀ depth client (method : Call), (Request.call method).isGrounded heap = true → ∀ strict,
        Settles (fun after => after.depth = depth)
            (fun fuel => run .walking host fuel strict method ⟨heap, depth, client⟩) ∧
          Settles (fun after => after.depth = depth)
            fun fuel => run .recursive host.grounded fuel strict method ⟨heap, depth, client⟩) ∧
    ∀ (fuel : Nat) (method : Call) (world : World σ),
      (∀ strict, (Exec.reached (run .walking host fuel strict method) world).depth =
        world.depth) ∧
      (∀ strict proxy, method.framed? = some proxy → world.heap.isExotic proxy = true →
        (world.heap.config proxy).maxProxyDepth ≤ world.depth →
          run .walking host (fuel + 1) strict method world =
            .error (.error (.range .nestingLimit)) world) ∧
      ∀ limit, world.depth ≤ limit →
        method.Throughout (fun moment => moment.limit?.all (· ≤ limit)) host fuel world →
          method.Throughout (fun moment => moment.innerDepth ≤ limit) host fuel world := by
  refine ⟨?_, fun fuel method world => ⟨?_, ?_, ?_⟩⟩
  · intro heap built noFunction depth client method named strict
    exact ⟨run_walking_settles built noFunction named host depth client strict,
      run_recursive_settles built noFunction named host depth client strict⟩
  · intro strict
    rw [reached_run, Call.depth_reached]
  · exact fun strict proxy => run_refused host fuel strict
  · exact fun limit => Call.throughout_innerDepth_le

end Flagged

/-- An object whose prototype is a proxy for it, with the object itself for a handler. -/
def Heap.prototypeRing : Heap :=
  Command.runAll (.start { maxProxyDepth := 2 })
    [.allocate 0 .ordinary none false, .allocate 0 (.proxy ⟨0, 0, false⟩) none false,
      .setPrototypeOf 0 (some 1)]

theorem Heap.prototypeRing_isBuilt : prototypeRing.IsBuilt := by
  refine .take (.take (.take (.start _) (.allocate _ _ _ _) ⟨?_, ?_⟩) (.allocate _ _ _ _) ⟨?_, ?_⟩)
    (.setPrototypeOf _ _) ?_
  · exact fun _ member => by cases member
  · exact fun _ member => by cases member
  · exact fun _ member => by cases member
  · decide
  · rintro _ ⟨rfl⟩
    decide

theorem Heap.prototypeRing_kind (id : ObjectId) (name : String) (body : FunctionBody) :
    prototypeRing.kind id ≠ .function name body := by
  have size_eq : prototypeRing.objects.size = 2 := by decide
  have first : prototypeRing.kind 0 = .ordinary := by decide
  have second : prototypeRing.kind 1 = .proxy ⟨0, 0, false⟩ := by decide
  intro isFunction
  by_cases isFirst : id = 0
  · rw [isFirst, first] at isFunction
    cases isFunction
  by_cases isSecond : id = 1
  · rw [isSecond, second] at isFunction
    cases isFunction
  · have outside : 2 ≤ id := (Nat.two_le_iff id).mpr ⟨isFirst, isSecond⟩
    rw [kind, object_outside (size_eq.trans_le outside)] at isFunction
    cases isFunction

/-- A lookup in the ring ends with an error at the limit, and no method runs deeper. -/
theorem Flagged.run_terminates_ring :
    let host : Host Unit := fun _ _ _ => .done (.ok .undefined)
    let method : Call := .getValue 0 (.symbol ⟨0, none⟩)
    (Exec.Settles (fun after => after.depth = 0)
      fun fuel => run .walking host fuel true method ⟨.prototypeRing, 0, ()⟩) ∧
    Exec.outcome (Call.run host 8 method) ⟨.prototypeRing, 0, ()⟩ =
      .error (.error (.range .nestingLimit)) ∧
    run .walking host 1 true (.has 1 (.symbol ⟨0, none⟩)) ⟨.prototypeRing, 2, ()⟩ =
      .error (.error (.range .nestingLimit)) ⟨.prototypeRing, 2, ()⟩ ∧
    method.Throughout (fun moment => moment.innerDepth ≤ 2) host 8 ⟨.prototypeRing, 0, ()⟩ := by
  intro host method
  refine ⟨?_, by decide +kernel, ?_, ?_⟩
  · exact ((run_terminates host).1 Heap.prototypeRing_isBuilt Heap.prototypeRing_kind 0 ()
      method rfl true).1
  · exact ((run_terminates host).2 0 (.has 1 (.symbol ⟨0, none⟩)) ⟨.prototypeRing, 2, ()⟩).2.1
      true 1 rfl (by decide) (by decide)
  · exact ((run_terminates host).2 8 method ⟨.prototypeRing, 0, ()⟩).2.2 2 (by decide)
      (by decide +kernel)

end ObjectModel
