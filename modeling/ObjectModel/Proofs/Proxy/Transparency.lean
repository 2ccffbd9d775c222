import ObjectModel.Proofs.Machine.Grounding
import ObjectModel.Proofs.Machine.Nesting

/-!
Contract: a proxy without traps is transparent.

An `Operation` is what a caller asks of an object, with the answer that it sees. Where the
handler's chain has no trap, an operation on the proxy is the operation on the target in one
frame more (`Operation.ask_step`), but that a proxy lists all keys of its target and leaves it
to the end which kinds its caller wants. As long as no frame is refused, the frame makes no
difference (`Heap.IsReached.transparent`): the target may be a proxy again, and the receiver of a
write may be the proxy itself.

Owns: operations as their callers see them.
-/

namespace ObjectModel

variable {σ α β : Type}

/-! ### Operations -/

/-- What is asked of an object. -/
inductive Operation where
  | getPrototypeOf
  | setPrototypeOf (prototype : Option ObjectId)
  | isExtensible
  | preventExtensions
  | getOwnProperty (key : PropertyKey)
  | defineOwnProperty (key : PropertyKey) (change : Descriptor)
  | has (key : PropertyKey)
  | get (key : PropertyKey) (receiver : Value)
  | set (key : PropertyKey) (value receiver : Value)
  | delete (key : PropertyKey)
  | ownKeys (strings symbols : Bool)

namespace Operation

/-- What callers see: that something was refused but not why, and `undefined` for a property that
is missing. -/
abbrev Answer : Operation → Type
  | getPrototypeOf => Option ObjectId
  | setPrototypeOf _ => Bool
  | isExtensible => Bool
  | preventExtensions => Bool
  | getOwnProperty _ => Option Descriptor
  | defineOwnProperty _ _ => Bool
  | has _ => Bool
  | get _ _ => Value
  | set _ _ _ => Bool
  | delete _ => Bool
  | ownKeys _ _ => List PropertyKey

/-- The internal method of the object. -/
def call (id : ObjectId) : Operation → Call
  | getPrototypeOf => .getPrototypeOf id
  | setPrototypeOf prototype => .setPrototypeOf id prototype
  | isExtensible => .isExtensible id
  | preventExtensions => .preventExtensions id
  | getOwnProperty key => .getOwnProperty id key
  | defineOwnProperty key change => .defineOwnProperty id key change
  | has key => .has id key
  | get key receiver => .get id key receiver
  | set key value receiver => .set id key value receiver
  | delete key => .delete id key
  | ownKeys strings symbols => .ownKeys id strings symbols

def seen (id : ObjectId) : (operation : Operation) → (operation.call id).Answer →
    operation.Answer
  | getPrototypeOf => fun prototype => prototype
  | setPrototypeOf _ => fun accepted => accepted
  | isExtensible => fun extensible => extensible
  | preventExtensions => Verdict.isAccepted
  | getOwnProperty _ => fun current => current
  | defineOwnProperty _ _ => Verdict.isAccepted
  | has _ => fun found => found
  | get _ _ => fun found => found.getD .undefined
  | set _ _ _ => Verdict.isAccepted
  | delete _ => Verdict.isAccepted
  | ownKeys _ _ => fun keys => keys

/-- The answer says that something was refused, which is an error for strict callers. -/
def isRefusal : (operation : Operation) → operation.Answer → Bool
  | preventExtensions => not
  | defineOwnProperty _ _ => not
  | set _ _ _ => not
  | delete _ => not
  | _ => fun _ => false

/-- The operation on an object, by methods that are run like this. -/
def ask (dispatch : Dispatch σ) (id : ObjectId) (operation : Operation) :
    Exec σ operation.Answer := do
  return operation.seen id (← dispatch (operation.call id))

/-- The operation as a proxy asks for it on its target. -/
def askForwarded (dispatch : Dispatch σ) (id : ObjectId) :
    (operation : Operation) → Exec σ operation.Answer
  | ownKeys strings symbols =>
      return (← dispatch (.allKeys id)).filter (·.isWanted strings symbols)
  | operation => operation.ask dispatch id

theorem ask_ok {dispatch : Dispatch σ} {id : ObjectId} {operation : Operation}
    {before after : World σ} {result : (operation.call id).Answer}
    (called : dispatch (operation.call id) before = .ok result after) :
    operation.ask dispatch id before = .ok (operation.seen id result) after := by
  rw [ask, Exec.bind_apply, called]
  rfl

end Operation

theorem Call.step_allKeys (host : Host σ) (dispatch : Dispatch σ) (id : ObjectId) :
    Call.step host dispatch (.allKeys id) =
      Machine.byKind id (Machine.proxyOwnKeys dispatch id)
        (return (← Exec.heap).ownKeys id) := by
  simp only [Call.step, PropertyKey.filter_isWanted_all, bind_pure]

/-- Some kinds of keys are all keys, filtered. -/
theorem Call.step_ownKeys (host : Host σ) (dispatch : Dispatch σ) (id : ObjectId)
    (strings symbols : Bool) :
    Call.step host dispatch (.ownKeys id strings symbols) =
      Call.step host dispatch (.allKeys id) >>= fun keys =>
        pure (keys.filter (·.isWanted strings symbols)) := by
  rw [Call.step_allKeys]
  rfl

theorem Call.run_ownKeys_eq (host : Host σ) (fuel : Nat) (id : ObjectId)
    (strings symbols : Bool) :
    Call.run host fuel (.ownKeys id strings symbols) =
      Call.run host fuel (.allKeys id) >>= fun keys =>
        pure (keys.filter (·.isWanted strings symbols)) := by
  cases fuel with
  | zero => rfl
  | succ fuel => exact Call.step_ownKeys host _ id strings symbols

theorem Operation.askForwarded_run (host : Host σ) (fuel : Nat) (id : ObjectId)
    (operation : Operation) :
    operation.askForwarded (Call.run host fuel) id = operation.ask (Call.run host fuel) id := by
  cases operation with
  | ownKeys strings symbols =>
      show _ = Call.run host fuel (.ownKeys id strings symbols) >>= pure
      rw [bind_pure, Call.run_ownKeys_eq]
      rfl
  | _ => rfl

/-! ### Answers that are looked at -/

namespace Exec

theorem reached_congr {first second : Exec σ α} {world : World σ}
    (same : first world = second world) : reached first world = reached second world := by
  unfold reached
  rw [same]

/-- Looking at the answer changes nothing else. -/
theorem reached_bind_pure (computation : Exec σ α) (look : α → β) (world : World σ) :
    reached (computation >>= fun answer => pure (look answer)) world =
      reached computation world := by
  unfold reached
  rw [bind_apply]
  cases computation world <;> rfl

theorem reached_ask (dispatch : Dispatch σ) (id : ObjectId) (operation : Operation)
    (world : World σ) :
    reached (operation.ask dispatch id) world = reached (dispatch (operation.call id)) world :=
  reached_bind_pure _ _ world

/-- The world that was reached in the frame, with the frame closed. -/
theorem reached_inProxyFrame {proxy : ObjectId} {world : World σ}
    (entered : world.depth < (world.heap.config proxy).maxProxyDepth) (computation : Exec σ α) :
    reached (inProxyFrame proxy computation) world =
      let inner := reached computation { world with depth := world.depth + 1 }
      { inner with depth := inner.depth - 1 } := by
  unfold reached inProxyFrame andFinally
  rw [if_pos entered]
  cases computation { world with depth := world.depth + 1 } <;> rfl

theorem inProxyFrame_bind_pure (proxy : ObjectId) (computation : Exec σ α) (look : α → β) :
    (inProxyFrame proxy computation >>= fun answer => pure (look answer)) =
      inProxyFrame proxy (computation >>= fun answer => pure (look answer)) := by
  funext world
  rw [bind_apply]
  unfold inProxyFrame andFinally
  by_cases isEntered : world.depth < (world.heap.config proxy).maxProxyDepth
  · rw [if_pos isEntered, if_pos isEntered, bind_apply]
    cases computation { world with depth := world.depth + 1 } <;> rfl
  · rw [if_neg isEntered, if_neg isEntered]

/-- Only what happens in the frame matters. -/
theorem inProxyFrame_congr (proxy : ObjectId) {first second : Exec σ α} {world : World σ}
    (same : first { world with depth := world.depth + 1 } =
      second { world with depth := world.depth + 1 }) :
    inProxyFrame proxy first world = inProxyFrame proxy second world := by
  unfold inProxyFrame andFinally
  rw [same]

/-- A frame that is closed again leaves no trace. -/
theorem inProxyFrame_eq_of_matches {proxy : ObjectId} {inner outer : Exec σ α} {world : World σ}
    (entered : world.depth < (world.heap.config proxy).maxProxyDepth)
    (results : Matches (World.Roomier 1 True id) (inner { world with depth := world.depth + 1 })
      (outer world)) :
    inProxyFrame proxy inner world = outer world := by
  have closed : ∀ {deeper after : World σ}, World.Roomier 1 True id deeper after →
      { deeper with depth := deeper.depth - 1 } = after := by
    intro deeper after worlds
    rw [worlds.depth_eq, ← worlds.heap_eq trivial, worlds.client_eq]
    rfl
  unfold inProxyFrame andFinally
  rw [if_pos entered]
  generalize inner { world with depth := world.depth + 1 } = result, outer world = result'
    at results
  cases results with
  | ok answer worlds => exact congrArg (EStateM.Result.ok answer) (closed worlds)
  | error fault worlds => exact congrArg (EStateM.Result.error fault) (closed worlds)

end Exec

/-! ### One operation -/

/-- Asked for any trap, the handler has none. -/
def FindsNoTrap (dispatch : Dispatch σ) (handler : ObjectId) (world : World σ) : Prop :=
  ∀ trap : Trap, dispatch (.getValue handler (.ofString trap.name)) world = .ok none world

section Step

variable {dispatch : Dispatch σ} {proxy : ObjectId} {link : ProxyLink} {world : World σ}
  (isProxy : world.heap.proxy? proxy = some link) (notRevoked : link.revoked = false)
  (noTraps : FindsNoTrap dispatch link.handler { world with depth := world.depth + 1 })

include isProxy notRevoked

/-- Without the trap, the method of the target answers. -/
theorem Machine.throughTrap_forwards (noTraps : FindsNoTrap dispatch link.handler world)
    (trap : Trap) (forward : ObjectId → Exec σ α)
    (consult : ObjectId → (List Value → Exec σ Value) → Exec σ α) :
    throughTrap dispatch proxy trap forward consult world = forward link.target world := by
  have found : findTrap dispatch proxy trap world = .ok (link, none) world := by
    simp only [findTrap, Exec.heap_bind, isProxy, notRevoked, Bool.false_eq_true, if_false]
    rw [Exec.bind_apply, noTraps trap]
    rfl
  unfold throughTrap
  rw [Exec.bind_apply, found]

include noTraps

/-- One method of the proxy, as its caller sees the answer. -/
private theorem byKind_forwards (trap : Trap) {forward : ObjectId → Exec σ α}
    {consult : ObjectId → (List Value → Exec σ Value) → Exec σ α} {ordinary : Exec σ α}
    {look : α → β} {atTarget : Exec σ β}
    (forwards : (forward link.target >>= fun answer => pure (look answer)) = atTarget) :
    (Machine.byKind proxy (Machine.throughTrap dispatch proxy trap forward consult) ordinary >>=
      fun answer => pure (look answer)) world = Exec.inProxyFrame proxy atTarget world := by
  have isExotic : world.heap.isExotic proxy = true := by
    rw [Heap.isExotic, isProxy]
    rfl
  have inFrame := Exec.inProxyFrame_bind_pure proxy
    (Machine.throughTrap dispatch proxy trap forward consult) look
  rw [Exec.bind_apply, Machine.byKind_exotic isExotic, ← Exec.bind_apply, inFrame]
  refine Exec.inProxyFrame_congr proxy ?_
  let inner : World σ := { world with depth := world.depth + 1 }
  have isProxy : inner.heap.proxy? proxy = some link := isProxy
  have forwarded := Machine.throughTrap_forwards isProxy notRevoked noTraps trap forward consult
  show (Machine.throughTrap dispatch proxy trap forward consult >>= _) inner = atTarget inner
  rw [Exec.bind_apply, forwarded, ← Exec.bind_apply, forwards]

omit isProxy notRevoked noTraps in
/-- A proxy reports that the target refused, for a reason of its own. -/
private theorem bind_ofBool (reason : TypeFault) (computation : Exec σ Verdict) :
    ((do
        let verdict ← computation
        return Verdict.ofBool reason verdict.isAccepted) >>=
      fun verdict => pure verdict.isAccepted) =
      computation >>= fun verdict => pure verdict.isAccepted := by
  rw [bind_assoc]
  congr 1
  funext verdict
  cases verdict <;> rfl

/-- The operation on the proxy is the operation on its target in a frame. -/
theorem Operation.ask_step (host : Host σ) (operation : Operation) :
    operation.ask (Call.step host dispatch) proxy world =
      Exec.inProxyFrame proxy (operation.askForwarded dispatch link.target) world := by
  cases operation with
  | getPrototypeOf => exact byKind_forwards isProxy notRevoked noTraps .getPrototypeOf rfl
  | setPrototypeOf prototype =>
      exact byKind_forwards isProxy notRevoked noTraps .setPrototypeOf rfl
  | isExtensible => exact byKind_forwards isProxy notRevoked noTraps .isExtensible rfl
  | preventExtensions =>
      exact byKind_forwards isProxy notRevoked noTraps .preventExtensions (bind_ofBool _ _)
  | getOwnProperty key => exact byKind_forwards isProxy notRevoked noTraps .getOwnProperty rfl
  | defineOwnProperty key change =>
      exact byKind_forwards isProxy notRevoked noTraps .defineProperty (bind_ofBool _ _)
  | has key => exact byKind_forwards isProxy notRevoked noTraps .has rfl
  | get key receiver => exact byKind_forwards isProxy notRevoked noTraps .get (bind_assoc _ _ _)
  | set key value receiver =>
      exact byKind_forwards isProxy notRevoked noTraps .set (bind_ofBool _ _)
  | delete key => exact byKind_forwards isProxy notRevoked noTraps .delete (bind_ofBool _ _)
  | ownKeys strings symbols =>
      refine (congrFun (bind_pure _) world).trans ?_
      exact byKind_forwards isProxy notRevoked noTraps .ownKeys rfl

end Step

/-! ### Strict callers -/

/-- What a strict caller gets where a sloppy one gets this: a type error for a refusal, with
whatever reason, and the same otherwise. -/
inductive Operation.Reported (operation : Operation) :
    EStateM.Result Fault (World σ) operation.Answer →
      EStateM.Result Fault (World σ) operation.Answer → Prop
  | refused {answer : operation.Answer} (isRefusal : operation.isRefusal answer = true)
      (reason : TypeFault) (world : World σ) :
      Reported operation (.ok answer world) (.error (.error (.type reason)) world)
  | same {result : EStateM.Result Fault (World σ) operation.Answer}
      (notRefused : ∀ answer world, result = .ok answer world →
        operation.isRefusal answer = false) :
      Reported operation result result

theorem Operation.ask_reported (operation : Operation) (host : Host σ) (fuel : Nat)
    (id : ObjectId) (world : World σ) :
    operation.Reported (operation.ask (Call.run host fuel) id world)
      (operation.ask (Flagged.run .walking host fuel true) id world) := by
  unfold ask
  rw [Flagged.run_reports .walking host fuel true, Flagged.run_walking, Exec.bind_apply,
    Exec.bind_apply, Exec.bind_apply]
  generalize Call.run host fuel (operation.call id) world = result
  cases result with
  | error fault after => exact .same fun _ _ same => by cases same
  | ok answer after =>
      cases operation with
      | preventExtensions | defineOwnProperty _ _ | set _ _ _ | delete _ =>
          cases answer with
          | accepted => exact .same (by rintro _ _ ⟨⟩; rfl)
          | refused reason => exact .refused rfl reason after
      | _ => exact .same fun _ _ _ => rfl

/-! ### Handlers without traps -/

/-- An object that is not exotic, with no such property on its chain. -/
theorem Call.step_get_missing (host : Host σ) (dispatch : Dispatch σ) {world : World σ}
    {id : ObjectId} (notExotic : world.heap.isExotic id = false) {key : PropertyKey}
    (missing : world.heap.findProperty id key = .missing) (receiver : Value) :
    Call.step host dispatch (.get id key receiver) world = .ok none world := by
  rw [Call.step, Machine.byKind_ordinary notExotic, Machine.ordinaryGet, Exec.heap_bind]
  simp only [missing]
  rfl

/-- The chain of the handler is ordinary, and no object on it has a property with the name of a
trap. -/
def Heap.LacksTraps (heap : Heap) (handler : ObjectId) : Prop :=
  ∃ ids : List ObjectId, heap.Chain (some handler) (ids.map .ordinary) ∧
    ∀ id ∈ ids, ∀ trap : Trap, heap.lookup id (.ofString trap.name) = none

/-- What is on no object of an ordinary chain is not found. -/
theorem Heap.Chained.findProperty_missing {heap : Heap} (chained : heap.Chained)
    {ids : List ObjectId} {start : ObjectId}
    (chain : heap.Chain (some start) (ids.map .ordinary)) {key : PropertyKey}
    (absent : ∀ id ∈ ids, heap.lookup id key = none) :
    heap.isExotic start = false ∧ heap.findProperty start key = .missing := by
  induction ids generalizing start with
  | nil => cases chain
  | cons first rest inductionHypothesis =>
      cases chain with
      | ordinary notExotic rest =>
          refine ⟨notExotic, ?_⟩
          rw [chained.findProperty_eq notExotic, absent first List.mem_cons_self]
          cases prototype : heap.prototype first with
          | none => rfl
          | some parent =>
              rw [prototype] at rest
              obtain ⟨parentNotExotic, missing⟩ := inductionHypothesis rest
                fun id member => absent id (List.mem_cons_of_mem _ member)
              simp only [parentNotExotic, Bool.false_eq_true, if_false, missing]

/-- Methods that are run find none of the traps. -/
theorem Heap.LacksTraps.step {heap : Heap} {handler : ObjectId} (lacks : heap.LacksTraps handler)
    (chained : heap.Chained) (host : Host σ) (dispatch : Dispatch σ) {world : World σ}
    (isHeap : world.heap = heap) :
    heap.isExotic handler = false ∧ FindsNoTrap (Call.step host dispatch) handler world := by
  obtain ⟨ids, chain, absent⟩ := lacks
  have missing := fun trap : Trap =>
    chained.findProperty_missing chain fun id member => absent id member trap
  subst isHeap
  exact ⟨(missing .get).1, fun trap =>
    Call.step_get_missing host dispatch (missing trap).1 (missing trap).2 _⟩

/-! ### Runs -/

/-- Whether the listing of keys is refused a frame does not depend on the kinds of keys. -/
theorem Call.unrefused_ownKeys {host : Host σ} {fuel : Nat} {id : ObjectId} {world : World σ}
    (unrefused : (Call.allKeys id).Unrefused host fuel world) (strings symbols : Bool) :
    (Call.ownKeys id strings symbols).Unrefused host fuel world := by
  cases fuel with
  | zero => exact unrefused
  | succ fuel =>
      -- both are refused exactly where the object is a proxy at its limit
      have started := Call.isRefused_eq_false unrefused
      have all : Moment.isRefused ⟨.allKeys id, world.watched.heap, world.watched.depth⟩ =
        false := started
      have some : Moment.isRefused
        ⟨.ownKeys id strings symbols, world.watched.heap, world.watched.depth⟩ = false := started
      have listed := Call.runWatched_unrefused host fuel some
      rw [Call.step_ownKeys, Exec.bind_apply, ← Call.runWatched_unrefused host fuel all,
        ← Exec.bind_apply] at listed
      unfold Call.Unrefused Call.Throughout Exec.Unstopped at unrefused ⊢
      rwa [Exec.reached_congr listed, Exec.reached_bind_pure]

/-- So what a proxy asks of its target is refused no frame that its caller's operation, asked of
the target, is not. -/
theorem Operation.unstopped_of_forwarded {host : Host σ} {fuel : Nat} {id : ObjectId}
    {operation : Operation} {world : World σ}
    (unstopped : (operation.askForwarded
      (Call.runWatched (fun moment => !moment.isRefused) host fuel) id).Unstopped world) :
    (operation.ask
      (Call.runWatched (fun moment => !moment.isRefused) host fuel) id).Unstopped world := by
  cases operation with
  | ownKeys strings symbols =>
      have unrefused : (Call.allKeys id).Unrefused host fuel world := by
        unfold Exec.Unstopped askForwarded at unstopped
        rwa [Exec.reached_bind_pure] at unstopped
      have filtered := Call.unrefused_ownKeys unrefused strings symbols
      unfold Exec.Unstopped
      rwa [Exec.reached_ask]
  | _ => exact unstopped

section Runs

variable {heap : Heap} {proxy : ObjectId} {link : ProxyLink} (chained : heap.Chained)
  (isProxy : heap.proxy? proxy = some link) (notRevoked : link.revoked = false)
  (lacks : heap.LacksTraps link.handler)

include chained isProxy notRevoked lacks

/-- With fuel for the handler, the operation on the proxy runs in a frame on the target. -/
theorem Operation.ask_run (host : Host σ) (operation : Operation) (fuel depth : Nat)
    (client : σ) :
    operation.ask (Call.run host (fuel + 2)) proxy ⟨heap, depth, client⟩ =
      Exec.inProxyFrame proxy (operation.ask (Call.run host (fuel + 1)) link.target)
        ⟨heap, depth, client⟩ := by
  rw [← Operation.askForwarded_run host (fuel + 1) link.target]
  exact operation.ask_step isProxy notRevoked
    (lacks.step chained host (Call.run host fuel) rfl).2 host

/-- If the operation on the proxy is unrefused, there is a frame, in which the operation on the
target is not stopped. -/
private theorem unstopped_target {host : Host σ} {operation : Operation} {fuel depth : Nat}
    {client : σ}
    (unrefused : (operation.call proxy).Unrefused host (fuel + 2) ⟨heap, depth, client⟩) :
    depth < (heap.config proxy).maxProxyDepth ∧
      (operation.ask (Call.runWatched (fun moment => !moment.isRefused) host (fuel + 1))
        link.target).Unstopped ⟨heap, depth + 1, client⟩ := by
  let run := Call.runWatched (fun moment => !moment.isRefused) host
  let watched : World (σ × Option Moment) := ⟨heap, depth, (client, none)⟩
  let inside : World (σ × Option Moment) := ⟨heap, depth + 1, (client, none)⟩
  have started := Call.isRefused_eq_false unrefused
  have framed : (operation.call proxy).framed? = some proxy := by cases operation <;> rfl
  have isExotic : heap.isExotic proxy = true := by
    rw [Heap.isExotic, isProxy]
    rfl
  have entered := Moment.isRefused_eq_false_iff.mp started proxy framed isExotic
  have noTraps : FindsNoTrap (run (fuel + 1)) link.handler inside := by
    intro trap
    obtain ⟨notExotic, missing⟩ := lacks.step chained (host.beside (Option Moment)) (run fuel)
      (rfl : inside.heap = heap)
    have unrefused : Moment.isRefused
        ⟨.getValue link.handler (.ofString trap.name), inside.heap, inside.depth⟩ = false := by
      refine Moment.isRefused_eq_false_iff.mpr fun id framed isExotic => ?_
      cases framed
      exact absurd isExotic (Bool.eq_false_iff.mp notExotic)
    exact (Call.runWatched_unrefused host fuel unrefused).trans (missing trap)
  have stepped : run (fuel + 2) (operation.call proxy) watched =
      Call.step (host.beside (Option Moment)) (run (fuel + 1)) (operation.call proxy) watched :=
    Call.runWatched_unrefused host (fuel + 1) started
  have inFrame : operation.ask (Call.step (host.beside (Option Moment)) (run (fuel + 1))) proxy
      watched = Exec.inProxyFrame proxy (operation.askForwarded (run (fuel + 1)) link.target)
        watched :=
    operation.ask_step isProxy notRevoked noTraps _
  refine ⟨entered, Operation.unstopped_of_forwarded ?_⟩
  have seen : Exec.reached (run (fuel + 2) (operation.call proxy)) watched =
      Exec.reached (Exec.inProxyFrame proxy (operation.askForwarded (run (fuel + 1)) link.target))
        watched := by
    rw [Exec.reached_congr stepped, ← Exec.reached_congr inFrame]
    exact (Exec.reached_ask _ _ _ _).symm
  unfold Call.Unrefused Call.Throughout Exec.Unstopped at unrefused
  rwa [World.watched, seen, Exec.reached_inProxyFrame entered] at unrefused

/-- As long as it is not refused a frame, the operation on the proxy is the operation on the
target. -/
private theorem ask_target {host : Host σ} {operation : Operation} {fuel depth : Nat} {client : σ}
    (unrefused : (operation.call proxy).Unrefused host (fuel + 2) ⟨heap, depth, client⟩) :
    (operation.call link.target).Unrefused host (fuel + 1) ⟨heap, depth, client⟩ ∧
      operation.ask (Call.run host (fuel + 2)) proxy ⟨heap, depth, client⟩ =
        operation.ask (Call.run host (fuel + 1)) link.target ⟨heap, depth, client⟩ := by
  obtain ⟨entered, unstopped⟩ := unstopped_target chained isProxy notRevoked lacks unrefused
  have deeper : World.Roomier 1 True id ⟨heap, depth + 1, client⟩ ⟨heap, depth, client⟩ :=
    ⟨.refl 1 heap, fun _ => rfl, rfl, rfl⟩
  have hosts : Host.Annotates (fun _ => True) id host host :=
    Host.Asks.annotates fun code this arguments => Script.asks_any _
  have watches : ∀ depth, (World.watchSimulation σ True depth).Agrees
      (operation.ask (Call.runWatched (fun moment => !moment.isRefused) host (fuel + 1))
        link.target)
      fun _ => operation.ask (Call.run host (fuel + 1)) link.target := fun depth =>
    .bind ((Call.runWatched_dispatches (fun _ _ => trivial) host (fuel + 1) depth).method _
      (Call.within_seeing _)) fun _ => .pure _
  have shadows : (World.shadowSimulation True 1 True (Prod.map id id) depth).Agrees
      (operation.ask (Call.runWatched (fun moment => !moment.isRefused) host (fuel + 1))
        link.target)
      fun _ => operation.ask (Call.runWatched (fun moment => !moment.isRefused) host (fuel + 1))
        link.target :=
    .bind ((Call.unrefused_dispatches (fun _ request _ => World.admits_of_exact trivial request)
      hosts (fuel + 1)).method _ (Call.within_seeing _)) fun _ => .pure _
  obtain ⟨unstopped', results⟩ :=
    Exec.matches_of_unrefused deeper shadows (watches _) (watches _) unstopped
  refine ⟨?_, ?_⟩
  · unfold Exec.Unstopped at unstopped'
    rwa [Exec.reached_ask] at unstopped'
  · rw [Operation.ask_run chained isProxy notRevoked lacks]
    exact Exec.inProxyFrame_eq_of_matches entered results

end Runs

/-- On every heap that programs reach, a proxy whose handler has no trap is transparent. As long
as no method is refused a frame, every operation on it gives the answer or the error that the
operation on the target gives, in the same heap, after the same calls of functions. A strict
caller gets type errors for the refusals of both, and is told the same otherwise. -/
theorem Heap.IsReached.transparent {heap : Heap} (reached : heap.IsReached) {proxy : ObjectId}
    {link : ProxyLink} (isProxy : heap.proxy? proxy = some link)
    (notRevoked : link.revoked = false) (lacks : heap.LacksTraps link.handler) (host : Host σ)
    (operation : Operation) {fuel depth : Nat} {state : σ} {calls : List FunctionCall}
    (unrefused : (operation.call proxy).Unrefused host.recorded (fuel + 2)
      ⟨heap, depth, state, calls⟩) :
    let ask := fun fuel strict id =>
      operation.ask (Flagged.run .walking host.recorded fuel strict) id
        ⟨heap, depth, state, calls⟩
    (operation.call link.target).Unrefused host.recorded (fuel + 1)
        ⟨heap, depth, state, calls⟩ ∧
      ask (fuel + 2) false proxy = ask (fuel + 1) false link.target ∧
      operation.Reported (ask (fuel + 2) false proxy) (ask (fuel + 2) true proxy) ∧
      operation.Reported (ask (fuel + 1) false link.target)
        (ask (fuel + 1) true link.target) := by
  intro ask
  have ask_false : ∀ fuel id, ask fuel false id = operation.ask (Call.run host.recorded fuel) id
      ⟨heap, depth, state, calls⟩ := by
    intro fuel id
    show operation.ask (Flagged.run .walking host.recorded fuel false) id _ = _
    rw [Flagged.run_walking]
  obtain ⟨unrefused', same⟩ :=
    ask_target reached.chained isProxy notRevoked lacks unrefused
  refine ⟨unrefused', ?_⟩
  rw [ask_false, ask_false]
  exact ⟨same, operation.ask_reported _ _ _ _, operation.ask_reported _ _ _ _⟩

/-- Makes an object, a proxy for it, and a proxy for that proxy. -/
def wrappedTwice : Script Unit Unit :=
  .ask (.newObject 0 none false) fun _ =>
  .ask (.newObject 0 none false) fun _ =>
  .ask (.newProxy 0 0 1) fun _ =>
  .ask (.newProxy 0 2 1) fun _ => .done ()

/-- A write to the outer proxy, which is its own receiver, is the write to the inner one. -/
theorem Heap.IsReached.transparent_wrappedTwice :
    let host : Host Unit := fun _ _ _ => .done (.ok .undefined)
    let heap := (Exec.reached (wrappedTwice.grounded.run host.grounded 1)
      ⟨.start {}, 0, ()⟩).heap
    let operation : Operation := .set (.symbol ⟨0, none⟩) .null (.object 3)
    let ask := fun fuel strict id =>
      operation.ask (Flagged.run .walking host.recorded fuel strict) id ⟨heap, 0, (), []⟩
    heap.IsReached ∧ heap.proxy? 3 = some ⟨2, 1, false⟩ ∧ heap.LacksTraps 1 ∧
      (operation.call 3).Unrefused host.recorded 7 ⟨heap, 0, (), []⟩ ∧
      (Exec.outcome (operation.ask (Flagged.run .walking host.recorded 7 false) 3)
        ⟨heap, 0, (), []⟩ : Except Fault Bool) = .ok true ∧
      ask 7 false 3 = ask 6 false 2 := by
  intro host heap operation ask
  have reached : heap.IsReached := ⟨Unit, Unit, host, wrappedTwice, {}, 1, (), rfl⟩
  have isProxy : heap.proxy? 3 = some ⟨2, 1, false⟩ := rfl
  have lacks : heap.LacksTraps 1 := by
    refine ⟨[1], .ordinary rfl .null, fun id member trap => ?_⟩
    obtain rfl := List.mem_singleton.mp member
    cases trap <;> rfl
  have unrefused : (operation.call 3).Unrefused host.recorded 7 ⟨heap, 0, (), []⟩ := by
    decide +kernel
  exact ⟨reached, isProxy, lacks, unrefused, by decide +kernel,
    (reached.transparent isProxy rfl lacks host operation unrefused).2.1⟩

end ObjectModel
