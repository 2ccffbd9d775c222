import ObjectModel.Proofs.Machine.Writing
import ObjectModel.Proofs.Proxy.Honesty

/-!
Contract: members of objects by name, asked for, read and called.

Without proxies on the way the first property with the name (`Heap.Resolves`) is the member. It
is present even if it is `undefined`; how it is read and called is `Machine.ReadOutcome` and
`Machine.InvokeOutcome`. Where a proxy answers first (`Heap.MeetsProxy`), there is always a
member.

Does not own: what proxies answer when they are asked for a member.
-/

namespace ObjectModel

variable {σ : Type}

theorem Descriptor.getter?_ofStored_accessor (attributes : Attributes)
    (getter setter : Option ObjectId) :
    (ofStored attributes (.accessor getter setter)).getter? = getter :=
  Value.object?_ofObjectOrUndefined getter

/-! ### Proxies on the way -/

namespace Heap

/-- A proxy comes before every property with this key on the way along prototypes. -/
inductive MeetsProxy (heap : Heap) (key : PropertyKey) : ObjectId → Prop
  | here {id : ObjectId} (isExotic : heap.isExotic id = true) : MeetsProxy heap key id
  | further {id parent : ObjectId} (ordinary : heap.isExotic id = false)
      (lacks : heap.getOwn id key = none) (next : heap.prototype id = some parent)
      (rest : MeetsProxy heap key parent) : MeetsProxy heap key id

theorem Chained.findProperty_meets {heap : Heap} (chained : heap.Chained) {key : PropertyKey}
    {id : ObjectId} (meets : heap.MeetsProxy key id) (ordinary : heap.isExotic id = false) :
    ∃ proxy, heap.findProperty id key = .exotic proxy ∧ heap.isExotic proxy = true := by
  induction meets with
  | here isExotic => simp [ordinary] at isExotic
  | @further id parent _ lacks next _ inductionHypothesis =>
      have lacks : heap.lookup id key = none := by simpa [getOwn] using lacks
      rw [chained.findProperty_eq ordinary, lacks]
      simp only [next]
      cases isProxy : heap.isExotic parent with
      | true => exact ⟨parent, rfl, isProxy⟩
      | false => exact inductionHypothesis isProxy

end Heap

namespace Machine

/-- A proxy always has a value. -/
theorem proxyGet_isSome {dispatch : Dispatch σ} {proxy : ObjectId} {key : PropertyKey}
    {receiver : Value} {before after : World σ} {answer : Option Value}
    (ended : proxyGet dispatch proxy key receiver before = .ok answer after) :
    answer.isSome = true := by
  obtain ⟨⟨link, function⟩, between, -, rest⟩ := Exec.bind_eq_ok ended
  cases function with
  | none =>
      obtain ⟨found, last, -, rest⟩ := Exec.bind_eq_ok rest
      cases rest
      rfl
  | some function =>
      obtain ⟨last, rest, -⟩ := Exec.holding_eq_ok rest
      obtain ⟨result, asked, -, rest⟩ := Exec.bind_eq_ok rest
      obtain ⟨current, described, -, rest⟩ := Exec.bind_eq_ok rest
      obtain ⟨-, rfl, -⟩ := checked_eq_ok rest
      rfl

end Machine

theorem Call.run_get_exotic (host : Host σ) (fuel : Nat) {world after : World σ} {id : ObjectId}
    (isExotic : world.heap.isExotic id = true) {key : PropertyKey} {receiver : Value}
    {answer : Option Value}
    (ended : Call.run host fuel (.get id key receiver) world = .ok answer after) :
    answer.isSome = true := by
  cases fuel with
  | zero => cases ended
  | succ fuel =>
      rw [Call.run, Call.step, Machine.byKind_exotic isExotic] at ended
      obtain ⟨between, answered, -⟩ := Exec.inProxyFrame_eq_ok ended
      exact Machine.proxyGet_isSome answered

/-- There is a value wherever a proxy answers first. -/
theorem Call.run_get_meets (host : Host σ) (fuel : Nat) {world after : World σ}
    (chained : world.heap.Chained) {id : ObjectId} {key : PropertyKey}
    (meets : world.heap.MeetsProxy key id) {receiver : Value} {answer : Option Value}
    (ended : Call.run host fuel (.get id key receiver) world = .ok answer after) :
    answer.isSome = true := by
  cases isProxy : world.heap.isExotic id with
  | true => exact Call.run_get_exotic host fuel isProxy ended
  | false =>
      obtain ⟨proxy, search, isExotic⟩ := chained.findProperty_meets meets isProxy
      cases fuel with
      | zero => cases ended
      | succ fuel =>
          rw [Call.run, Call.step, Machine.byKind_ordinary isProxy, Machine.ordinaryGet,
            Exec.heap_bind] at ended
          simp only [search] at ended
          obtain ⟨last, ended, -⟩ := Exec.holding_eq_ok ended
          let held : World σ := { world with heap := world.heap.holdAll [proxy] }
          have stillExotic : held.heap.isExotic proxy = true :=
            (Heap.isExotic_congr ((Heap.sameContent_holdAll _ _).kind_eq proxy)).trans isExotic
          exact Call.run_get_exotic host fuel stillExotic ended

/-! ### Reading -/

namespace Machine

variable (dispatch : Dispatch σ) (id : ObjectId) (name : String) (world : World σ)

/-- A lookup that finds nothing is a fault of its own. -/
theorem readMember_apply :
    readMember dispatch id name world =
      match dispatch (.getValue id (.ofString name)) world with
      | .ok (some value) after => .ok (.ok value) after
      | .ok none after => .ok (.error (.unknown name)) after
      | .error fault after => .error fault after := by
  rw [readMember, Exec.bind_apply]
  cases dispatch (.getValue id (.ofString name)) world with
  | ok found after => cases found <;> rfl
  | error fault after => rfl

theorem readMember_eq_unknown_iff {after : World σ} :
    readMember dispatch id name world = .ok (.error (.unknown name)) after ↔
      dispatch (.getValue id (.ofString name)) world = .ok none after := by
  rw [readMember_apply]
  cases dispatch (.getValue id (.ofString name)) world with
  | ok found after => cases found <;> simp
  | error fault after => simp

/-- How reading a member ends, with `call` for calling getters, where `found` is the first
property with its name, if there is one. -/
structure ReadOutcome (call : Dispatch σ) (world : World σ) (receiver : ObjectId) (name : String)
    (found : Option Descriptor)
    (outcome : EStateM.Result Fault (World σ) (Except MemberFault Value)) : Prop where
  missing : found = none → outcome = .ok (.error (.unknown name)) world
  stored : ∀ current, found = some current → current.isAccessor = false →
    outcome = .ok (.ok (current.value.getD .undefined)) world
  noGetter : ∀ current, found = some current → current.isAccessor = true →
    current.getter? = none → outcome = .ok (.ok .undefined) world
  computed : ∀ current getter, found = some current → current.getter? = some getter →
    ∃ held, held.SameContent world.heap ∧
      match call (.call getter (.object receiver) []) { world with heap := held } with
      | .ok value after => ∃ heap, outcome = .ok (.ok value) { after with heap := heap } ∧
          heap.SameContent after.heap
      | .error fault after => ∃ heap, outcome = .error fault { after with heap := heap } ∧
          heap.SameContent after.heap

/-- How calling a member ends, with `call` for calling it, after it was read with the outcome
`read`: it fails as reading it failed, or it cannot be called and nothing happens, or it is
called once, with nothing but the function in hand. -/
structure InvokeOutcome (call : Dispatch σ) (receiver : ObjectId) (name : String)
    (arguments : List Value)
    (read outcome : EStateM.Result Fault (World σ) (Except MemberFault Value)) : Prop where
  unknown : ∀ fault after, read = .ok (.error fault) after → outcome = .ok (.error fault) after
  unread : ∀ fault after, read = .error fault after → outcome = .error fault after
  notCallable : ∀ value after, read = .ok (.ok value) after →
    after.heap.isFunction value = false → outcome = .ok (.error (.notInvocable name)) after
  called : ∀ function after, read = .ok (.ok (.object function)) after →
    after.heap.isCallable function = true →
      outcome =
        match Exec.holding [function] (call (.call function (.object receiver) arguments))
            after with
        | .ok answer last => .ok (.ok answer) last
        | .error fault last => .error fault last

/-- Only a member that is missing is a fault to a reader. -/
theorem ReadOutcome.found_eq_none {call : Dispatch σ} {found : Option Descriptor}
    {outcome : EStateM.Result Fault (World σ) (Except MemberFault Value)}
    (outcomes : ReadOutcome call world id name found outcome) {fault : MemberFault}
    {after : World σ} (ended : outcome = .ok (.error fault) after) : found = none := by
  cases isFound : found with
  | none => rfl
  | some current =>
      exfalso
      cases isAccessor : current.isAccessor with
      | false =>
          rw [outcomes.stored current isFound isAccessor] at ended
          cases ended
      | true =>
          cases isGetter : current.getter? with
          | none =>
              rw [outcomes.noGetter current isFound isAccessor isGetter] at ended
              cases ended
          | some getter =>
              obtain ⟨held, -, called⟩ := outcomes.computed current getter isFound isGetter
              split at called <;> obtain ⟨heap, outcome_eq, -⟩ := called
              · rw [outcome_eq] at ended
                cases ended
              · rw [outcome_eq] at ended
                cases ended

theorem invokeMember_outcome (arguments : List Value) :
    InvokeOutcome dispatch id name arguments (readMember dispatch id name world)
      (invokeMember dispatch id name arguments world) := by
  rw [invokeMember, Exec.bind_apply]
  generalize readMember dispatch id name world = read
  constructor
  · rintro fault after rfl
    rfl
  · rintro fault after rfl
    rfl
  · rintro value after rfl notCallable
    cases value with
    | object function =>
        have notCallable : after.heap.isCallable function = false := notCallable
        simp only [Exec.heap_bind, notCallable]
        rfl
    | _ => rfl
  · rintro function after rfl callable
    simp only
    rw [Exec.heap_bind, if_pos callable, Exec.bind_apply]
    cases Exec.holding [function] (dispatch (.call function (.object id) arguments)) after <;>
      rfl

/-- A member is unknown to a call exactly if it is to a reader. -/
theorem invokeMember_eq_unknown_iff (arguments : List Value) {after : World σ} :
    invokeMember dispatch id name arguments world = .ok (.error (.unknown name)) after ↔
      readMember dispatch id name world = .ok (.error (.unknown name)) after := by
  constructor
  · intro ended
    obtain ⟨read, between, isRead, rest⟩ := Exec.bind_eq_ok ended
    cases read with
    | error fault =>
        cases rest
        exact isRead
    | ok value =>
        cases value with
        | object function =>
            simp only [Exec.heap_bind] at rest
            split at rest
            · obtain ⟨answer, last, -, rest⟩ := Exec.bind_eq_ok rest
              cases rest
            · cases rest
        | _ => cases rest
  · exact (invokeMember_outcome dispatch id name world arguments).unknown _ after

/-! ### Without proxies -/

section Ordinary

variable (host : Host σ) (fuel : Nat) {world}

/-- A getter is called once, with the object as receiver. -/
theorem readMember_getter (ordinary : world.heap.isExotic id = false) {holder getter : ObjectId}
    {setter : Option ObjectId} {attributes : Attributes}
    (found : world.heap.findProperty id (.ofString name) =
      .found holder attributes (.accessor (some getter) setter)) :
    ∃ held, held.SameContent world.heap ∧
      match Call.run host fuel (.call getter (.object id) []) { world with heap := held } with
      | .ok value after => ∃ heap,
          readMember (Call.run host (fuel + 1)) id name world =
            .ok (.ok value) { after with heap := heap } ∧ heap.SameContent after.heap
      | .error fault after => ∃ heap,
          readMember (Call.run host (fuel + 1)) id name world =
            .error fault { after with heap := heap } ∧ heap.SameContent after.heap := by
  let objects := world.heap.inHand holder (.accessor (some getter) setter)
  refine ⟨_, Heap.sameContent_holdAll world.heap objects, ?_⟩
  have released := fun heap => Heap.sameContent_releaseAll heap objects
  rw [readMember_apply, Call.run_get_accessor host fuel world ordinary found, Exec.bind_apply,
    Exec.holding_apply]
  cases Call.run host fuel (.call getter (.object id) [])
    { world with heap := world.heap.holdAll objects } with
  | ok value after => exact ⟨_, rfl, released after.heap⟩
  | error fault after => exact ⟨_, rfl, released after.heap⟩

/-- The first property on the chain is the member, if there is one. -/
theorem readMember_outcome (chained : world.heap.Chained)
    (onlyOrdinary : ∀ other, Relation.ReflTransGen world.heap.Link id other →
      world.heap.isExotic other = false) :
    ∃ found, world.heap.Resolves (.ofString name) id found ∧
      hasMember (Call.run host (fuel + 1)) id name world = .ok found.isSome world ∧
      ReadOutcome (Call.run host fuel) world id name found
        (readMember (Call.run host (fuel + 1)) id name world) := by
  have ordinary := onlyOrdinary id .refl
  have asked := Call.run_has host fuel world ordinary (.ofString name)
  have looked : Call.run host (fuel + 1) (.getValue id (.ofString name)) world =
      ordinaryGet (Call.run host fuel) id (.ofString name) (.object id) world := by
    rw [Call.run, Call.step, byKind_ordinary ordinary]
  rw [ordinaryGet, Exec.heap_bind] at looked
  rcases chained.findProperty_resolves onlyOrdinary (.ofString name) with
    ⟨holder, attributes, slot, search, resolves⟩ | ⟨search, resolves⟩
  · simp only [search] at asked looked
    refine ⟨_, resolves, asked fun _ => ChainResult.noConfusion, ?_⟩
    cases slot with
    | data value =>
        have read : readMember (Call.run host (fuel + 1)) id name world =
            .ok (.ok value) world := by
          rw [readMember_apply, looked]
          rfl
        constructor
        · rintro ⟨⟩
        · rintro _ ⟨⟩ -
          exact read
        · rintro _ ⟨⟩ ⟨⟩
        · rintro _ _ ⟨⟩ ⟨⟩
    | accessor getter setter =>
        constructor
        · rintro ⟨⟩
        · rintro _ ⟨⟩ ⟨⟩
        · rintro _ ⟨⟩ - noGetter
          obtain rfl := (Descriptor.getter?_ofStored_accessor ..).symm.trans noGetter
          rw [readMember_apply, looked]
          rfl
        · rintro _ function ⟨⟩ isGetter
          obtain rfl := (Descriptor.getter?_ofStored_accessor ..).symm.trans isGetter
          exact readMember_getter id name host fuel ordinary search
  · simp only [search] at asked looked
    have read : readMember (Call.run host (fuel + 1)) id name world =
        .ok (.error (.unknown name)) world := by
      rw [readMember_apply, looked]
      rfl
    refine ⟨none, resolves, asked fun _ => ChainResult.noConfusion, fun _ => read, ?_, ?_, ?_⟩
    · rintro _ ⟨⟩
    · rintro _ ⟨⟩
    · rintro _ _ ⟨⟩

end Ordinary

end Machine

/-- Members of an object in any reached heap. With only ordinary prototypes, presence, lookup,
reading and calling agree on whether there is a member: a missing one is absent, none, and
unknown. A member that is there is read as its value or by its getter, and is called once, with
the object as receiver, if it can be read and called. If a proxy answers first, the member is
never unknown. -/
theorem Call.run_members (host : Host σ) (fuel : Nat) (world : World σ)
    (reached : world.heap.IsReached) (id : ObjectId) (name : String) (arguments : List Value) :
    let dispatch := Call.run host (fuel + 1)
    let key := PropertyKey.ofString name
    let read := Machine.readMember dispatch id name world
    let called := Machine.invokeMember dispatch id name arguments world
    ((∀ other, Relation.ReflTransGen world.heap.Link id other →
        world.heap.isExotic other = false) →
      ∃ found, world.heap.Resolves key id found ∧
        Machine.hasMember dispatch id name world = .ok found.isSome world ∧
        (found.isSome = false ↔ ∃ after, dispatch (.getValue id key) world = .ok none after) ∧
        (found.isSome = false ↔ ∃ after, read = .ok (.error (.unknown name)) after) ∧
        (found.isSome = false ↔ ∃ after, called = .ok (.error (.unknown name)) after) ∧
        Machine.ReadOutcome (Call.run host fuel) world id name found read ∧
        Machine.InvokeOutcome dispatch id name arguments read called) ∧
    (world.heap.MeetsProxy key id → ∀ fault after, read ≠ .ok (.error fault) after ∧
      called ≠ .ok (.error (.unknown name)) after) := by
  intro dispatch key read called
  have chained := reached.chained
  refine ⟨fun onlyOrdinary => ?_, fun meets fault after => ?_⟩
  · obtain ⟨found, resolves, asked, outcomes⟩ :=
      Machine.readMember_outcome id name host fuel chained onlyOrdinary
    have missing_iff :
        found.isSome = false ↔ ∃ after, read = .ok (.error (.unknown name)) after := by
      rw [Option.isSome_eq_false_iff, Option.isNone_iff_eq_none]
      exact ⟨fun isNone => ⟨world, outcomes.missing isNone⟩,
        fun ⟨_, ended⟩ => outcomes.found_eq_none id name world ended⟩
    refine ⟨found, resolves, asked, ?_, missing_iff, ?_, outcomes,
      Machine.invokeMember_outcome dispatch id name world arguments⟩
    · rw [missing_iff]
      exact exists_congr fun _ => Machine.readMember_eq_unknown_iff dispatch id name world
    · rw [missing_iff]
      exact exists_congr fun _ =>
        (Machine.invokeMember_eq_unknown_iff dispatch id name world arguments).symm
  · have present : ∀ fault last, read ≠ .ok (.error fault) last := by
      intro fault last ended
      have looked := Machine.readMember_apply dispatch id name world
      change read = _ at looked
      rw [ended] at looked
      split at looked
      · cases looked
      · rename_i isMissing
        exact Bool.noConfusion (Call.run_get_meets host (fuel + 1) chained meets isMissing)
      · cases looked
    refine ⟨present fault after, fun ended => ?_⟩
    exact present _ after
      ((Machine.invokeMember_eq_unknown_iff dispatch id name world arguments).mp ended)

/-- Makes an object with a method, one that inherits it, and one behind a proxy. -/
def inheritedMethod (name : String) : Script Nat Unit :=
  .ask (.newObject 0 none false) fun _ =>
  .ask (.newFunction 0 none name 0) fun _ =>
  .ask (.call (.createData 0 (.ofString name) (.object 1))) fun _ =>
  .ask (.newObject 0 (some 0) false) fun _ =>
  .ask (.newProxy 0 0 0) fun _ =>
  .ask (.newObject 0 (some 3) false) fun _ => .done ()

/-- Functions that count their calls and answer with their receiver. -/
def countingHost : Host Nat := fun _ this _ => .update (· + 1) (.done (.ok this))

/-- An inherited method is called once, with the object that inherits it. -/
theorem Call.run_members_inherited :
    let heap := (Exec.reached ((inheritedMethod "m").grounded.run countingHost.grounded 1)
      ⟨.start {}, 0, 0⟩).heap
    heap.IsReached ∧
      (∀ other, Relation.ReflTransGen heap.Link 2 other → heap.isExotic other = false) ∧
      heap.MeetsProxy (.ofString "m") 4 ∧
      Machine.hasMember (Call.run countingHost 1) 2 "m" ⟨heap, 0, 0⟩ = .ok true ⟨heap, 0, 0⟩ ∧
      Machine.invokeMember (Call.run countingHost 1) 2 "m" [] ⟨heap, 0, 0⟩ =
        .ok (.ok (.object 2)) ⟨heap, 0, 1⟩ ∧
      ∀ fault after, Machine.readMember (Call.run countingHost 1) 4 "m" ⟨heap, 0, 0⟩ ≠
        .ok (.error fault) after := by
  intro heap
  have reached : heap.IsReached :=
    ⟨Nat, Unit, countingHost, inheritedMethod "m", {}, 1, 0, rfl⟩
  have noneExotic : heap.isExotic 2 = false ∧ heap.isExotic 0 = false := by decide
  have proxies : heap.isExotic 4 = false ∧ heap.isExotic 3 = true := by decide
  have prototypes : heap.prototype 2 = some 0 ∧ heap.prototype 0 = none ∧
    heap.prototype 4 = some 3 := by decide
  have lacks : heap.getOwn 2 (.ofString "m") = none ∧ heap.getOwn 4 (.ofString "m") = none := by
    decide
  have inherited : heap.getOwn 0 (.ofString "m") = some (.data (.object 1) .assigned) := by decide
  have callable : heap.isCallable 1 = true := by decide
  have kind : (heap.holdAll [1]).kind 1 = .function "m" (.code 0) := by decide
  have released : (heap.holdAll [1]).releaseAll [1] = heap := Heap.releaseAll_holdAll (by decide)
  clear_value heap
  have onlyOrdinary : ∀ other, Relation.ReflTransGen heap.Link 2 other →
      heap.isExotic other = false := by
    intro other links
    rcases links.cases_head with rfl | ⟨parent, ⟨-, next⟩, rest⟩
    · exact noneExotic.1
    · cases prototypes.1.symm.trans next
      rcases rest.cases_head with rfl | ⟨_, ⟨-, next⟩, -⟩
      · exact noneExotic.2
      · cases prototypes.2.1.symm.trans next
  have meets : heap.MeetsProxy (.ofString "m") 4 :=
    .further proxies.1 lacks.2 prototypes.2.2 (.here proxies.2)
  obtain ⟨ordinary, -⟩ := Call.run_members countingHost 0 ⟨heap, 0, 0⟩ reached 2 "m" []
  obtain ⟨found, resolves, asked, -, -, -, outcomes, invoked⟩ := ordinary onlyOrdinary
  obtain rfl := Heap.Resolves.unique (.inherited lacks.1 prototypes.1 (.own inherited)) resolves
  obtain ⟨-, behindProxy⟩ := Call.run_members countingHost 0 ⟨heap, 0, 0⟩ reached 4 "m" []
  refine ⟨reached, onlyOrdinary, meets, asked, ?_, fun fault after =>
    (behindProxy meets fault after).1⟩
  have answer : Exec.holding [1] (Call.run countingHost 1 (.call 1 (.object 2) []))
      ⟨heap, 0, 0⟩ = .ok (.object 2) ⟨heap, 0, 1⟩ := by
    rw [Exec.holding_apply, Call.run, Call.step, Machine.callObject, Exec.heap_bind]
    simp only [kind]
    show EStateM.Result.ok (Value.object 2)
      (⟨(heap.holdAll [1]).releaseAll [1], 0, 1⟩ : World Nat) = _
    rw [released]
  have called := invoked.called 1 _ (outcomes.stored _ rfl rfl) callable
  rw [answer] at called
  exact called

end ObjectModel
