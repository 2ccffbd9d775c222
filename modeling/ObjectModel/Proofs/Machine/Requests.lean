import ObjectModel.Proofs.Machine.Proxies

/-!
Contract: user code, and internal methods that may run it, agree if the methods that they
call agree.

`Simulation.Similar` relates two scripts that ask for the same requests within the scope,
whatever they keep in their own states.

A method of a proxy runs in a frame. What is called in there has to agree as the frame demands,
what is called outside of it as the method is to (`Simulation.Dispatches.step_follows`).

Owns: agreement of `Call.step`.
-/

namespace ObjectModel

variable {σ τ : Type}

/-- The object that the method belongs to, if the method runs in a frame wherever that is a
proxy. -/
def Call.framed? : Call → Option ObjectId
  | .getPrototypeOf id | .setPrototypeOf id _ | .isExtensible id | .preventExtensions id
  | .getOwnProperty id _ | .defineOwnProperty id _ _ | .has id _ | .get id _ _ | .set id _ _ _
  | .delete id _ | .ownKeys id _ _ => some id
  | .call _ _ _ => none

namespace Simulation

/-- User code may ask for it. -/
def Admits (simulation : Simulation σ τ) : Request → Prop
  | .validate (some _) _ _ _ _ => simulation.applies
  | request => request.Within simulation.scope

theorem admits_of_within {simulation : Simulation σ τ} {request : Request}
    (within : request.Within simulation.scope) : simulation.Admits request := by
  cases request with
  | validate target key extensible change current =>
      cases target with
      | none => exact within
      | some id => exact False.elim within
  | _ => exact within

/-- Scripts that ask for the same requests, and keep related worlds related. -/
inductive Similar (simulation : Simulation σ τ) {α : Type} :
    Script σ α → Script τ α → Prop
  | done (result : α) : Similar simulation (.done result) (.done result)
  | ask (request : Request) (admitted : simulation.Admits request)
      {next : Except Error request.Answer → Script σ α}
      {next' : Except Error request.Answer → Script τ α}
      (rest : ∀ answer, Similar simulation (next answer) (next' answer)) :
      Similar simulation (.ask request next) (.ask request next')
  | look {next : σ → Script σ α} {next' : τ → Script τ α}
      (rest : ∀ left right, simulation.related left right →
        Similar simulation (next left.client) (next' right.client)) :
      Similar simulation (.look next) (.look next')
  | update {change : σ → σ} {change' : τ → τ} {next : Script σ α} {next' : Script τ α}
      (keeps : ∀ left right, simulation.related left right →
        simulation.related { left with client := change left.client }
          { right with client := change' right.client })
      (rest : Similar simulation next next') :
      Similar simulation (.update change next) (.update change' next')
  /-- The second script takes a note. -/
  | note {script : Script σ α} {change' : τ → τ} {next' : Script τ α}
      (keeps : ∀ left right, simulation.related left right →
        simulation.related left { right with client := change' right.client })
      (rest : Similar simulation script next') :
      Similar simulation script (.update change' next')

/-- The code of every function is similar. -/
def SimilarHosts (simulation : Simulation σ τ) (host : Host σ) (host' : Host τ) : Prop :=
  ∀ code this arguments,
    simulation.Similar (host code this arguments) (host' code this arguments)

end Simulation

/-- A definition without a target is only validated. -/
private theorem onHeapOrRaise_validate {σ : Type} (key : PropertyKey) (extensible : Bool)
    (change : Descriptor) (current : Option Descriptor) :
    (Exec.onHeapOrRaise fun heap =>
        heap.validateAndApply none key extensible change current : Exec σ Verdict) =
      pure (match change.refusal? key extensible current with
        | some reason => .refused reason
        | none => .accepted) := by
  unfold Heap.validateAndApply
  cases change.refusal? key extensible current <;> rfl

open Machine in
/-- The change that protects a property mentions no accessor. -/
private theorem isMixed_protectingChange {dispatch : Dispatch σ} {id : ObjectId}
    {level : Integrity} {key : PropertyKey} {change : Descriptor} {before after : World σ}
    (ended : protectingChange dispatch id level key before = .ok (some change) after) :
    change.isMixed = false := by
  cases level with
  | «sealed» =>
      cases ended
      rfl
  | frozen =>
      obtain ⟨current, between, -, rest⟩ := Exec.bind_eq_ok ended
      split at rest
      · cases rest
      split at rest
      · cases rest
        rfl
      · cases rest
        rfl

namespace Simulation.Dispatches

open Machine

variable {simulation : Simulation σ τ} {first : Dispatch σ} {second : Nat → Dispatch τ}
  (dispatches : simulation.Dispatches first second)

include dispatches

/-! ### Members and integrity -/

theorem readMember_agrees (id : ObjectId) (name : String) :
    simulation.Agrees (readMember first id name) fun fuel =>
      readMember (second fuel) id name := by
  refine .bind (dispatches.method _ trivial) fun found => ?_
  cases found with
  | none => exact .pure _
  | some value => exact .pure _

theorem invokeMember_agrees (id : ObjectId) (name : String) (arguments : List Value) :
    simulation.Agrees (invokeMember first id name arguments) fun fuel =>
      invokeMember (second fuel) id name arguments := by
  refine .bind (dispatches.readMember_agrees id name) fun member => ?_
  split
  · exact .pure _
  · refine .observing fun left right alike => ?_
    rw [alike.isCallable_eq]
    split
    · exact .bind (.holding _ (dispatches.method (.call _ _ _) trivial)) fun _ => .pure _
    · exact .pure _
  · exact .pure _

theorem protectingChange_agrees (id : ObjectId) (level : Integrity) (key : PropertyKey) :
    simulation.Agrees (protectingChange first id level key) fun fuel =>
      protectingChange (second fuel) id level key := by
  cases level with
  | «sealed» => exact .pure _
  | frozen =>
      refine .bind (dispatches.method _ trivial) fun current => ?_
      split
      · exact .pure _
      split
      · exact .pure _
      · exact .pure _

theorem protectKeys_agrees (id : ObjectId) (level : Integrity) (keys : List PropertyKey) :
    simulation.Agrees (protectKeys first id level keys) fun fuel =>
      protectKeys (second fuel) id level keys := by
  induction keys with
  | nil => exact .pure _
  | cons key rest inductionHypothesis =>
      refine .bind_ok (dispatches.protectingChange_agrees id level key)
        fun change _ _ ended => ?_
      cases change with
      | none => exact inductionHypothesis
      | some change =>
          refine .bind (dispatches.method (.defineOwnProperty id key change)
            (simulation.scope.changes_of_not_mixed (isMixed_protectingChange ended)))
            fun verdict => ?_
          cases verdict with
          | accepted => exact inductionHypothesis
          | refused reason => exact .typeError _

theorem setIntegrity_agrees (id : ObjectId) {level : Integrity}
    (within : simulation.scope.levels level) :
    simulation.Agrees (setIntegrity first id level) fun fuel =>
      setIntegrity (second fuel) id level := by
  intro left right worlds
  refine .withHeap ?_
  rw [(simulation.alike worlds).isExotic_eq]
  split
  · rename_i ordinary
    rw [Bool.not_eq_true'] at ordinary
    exact .bind (.onHeap worlds (.setIntegrity id level) ⟨ordinary, within⟩
      (fun answer => answer) rfl rfl) fun _ _ _ _ worlds' => .pure worlds' rfl
  · have prevents := dispatches.method (.preventExtensions id) trivial
    refine Agrees.bind prevents (fun verdict => ?_) _ _ worlds
    cases verdict with
    | refused reason => exact .pure _
    | accepted =>
        refine .bind (dispatches.method _ trivial) fun keys => ?_
        exact .bind (dispatches.protectKeys_agrees id level keys) fun _ => .pure _

theorem keysHaveIntegrity_agrees (id : ObjectId) (level : Integrity)
    (keys : List PropertyKey) :
    simulation.Agrees (keysHaveIntegrity first id level keys) fun fuel =>
      keysHaveIntegrity (second fuel) id level keys := by
  induction keys with
  | nil => exact .pure _
  | cons key rest inductionHypothesis =>
      refine .bind (dispatches.method _ trivial) fun current => ?_
      split
      · exact inductionHypothesis
      · exact .pure _

theorem testIntegrity_agrees (id : ObjectId) {level : Integrity}
    (within : simulation.scope.levels level) :
    simulation.Agrees (testIntegrity first id level) fun fuel =>
      testIntegrity (second fuel) id level := by
  refine .observing fun left right alike => ?_
  rw [alike.isExotic_eq, alike.testIntegrity_eq id within]
  split
  · exact .pure _
  refine .bind (dispatches.method _ trivial) fun extensible => ?_
  split
  · exact .pure _
  · refine .bind (dispatches.method _ trivial) fun keys => ?_
    exact dispatches.keysHaveIntegrity_agrees id level keys

/-! ### Requests and scripts -/

theorem perform_agrees {request : Request} (within : simulation.Admits request) :
    simulation.Agrees (request.perform first) fun fuel => request.perform (second fuel) := by
  cases request with
  | call method => exact dispatches.method method within
  | newStore config => exact .onHeap (.addStore config) fun _ => trivial
  | newObject store prototype isLiteral =>
      exact .onHeap (.allocate store .ordinary prototype isLiteral) fun _ =>
        ⟨within, List.forall_mem_nil _, fun _ => rfl⟩
  | newFunction store prototype name code =>
      exact .onHeap (.allocate store (.function name (.code code)) prototype false)
        fun _ => ⟨within, List.forall_mem_nil _, Bool.noConfusion⟩
  | newProxy store target handler =>
      have links : ∀ id ∈ (ObjectKind.proxy ⟨target, handler, false⟩).references,
          simulation.scope.references id :=
        List.forall_mem_cons.mpr ⟨within.1, List.forall_mem_singleton.mpr within.2⟩
      exact .onHeap (.allocate store (.proxy ⟨target, handler, false⟩) none false)
        fun _ => ⟨simulation.scope.prototypes_none, links, Bool.noConfusion⟩
  | newRevoker store proxy =>
      exact .onHeap (.allocate store (.function "revoke" (.revoke proxy)) none false)
        fun _ => ⟨simulation.scope.prototypes_none, List.forall_mem_nil _, Bool.noConfusion⟩
  | revoke proxy => exact .onHeap (.revoke proxy) fun _ => trivial
  | describe store descriptor => exact .onHeap (.describe store descriptor) fun _ => trivial
  | readDescription value => exact dispatches.readDescription_agrees value
  | setWithOwn own key value receiver =>
      exact dispatches.setWithOwn_agrees own key value receiver
  | setIntegrity id level => exact dispatches.setIntegrity_agrees id within
  | testIntegrity id level => exact dispatches.testIntegrity_agrees id within
  | readMember id name => exact dispatches.readMember_agrees id name
  | hasMember id name => exact dispatches.method _ trivial
  | invokeMember id name arguments => exact dispatches.invokeMember_agrees id name arguments
  | validate target key extensible change current =>
      cases target with
      | some id =>
          intro left right worlds
          obtain ⟨sameAnswer, worlds'⟩ :=
            simulation.validate within worlds id key extensible change current
          exact .onHeapOrRaise_of_step sameAnswer worlds'
      | none =>
          simp only [Request.perform, onHeapOrRaise_validate]
          exact .pure _
  | transition store shape step => exact .onHeap (.transition store shape step) fun _ => within
  | hold id => exact .onHeap (.holdAll [id]) fun _ => trivial
  | release id => exact .onHeap (.releaseAll [id]) fun _ => trivial
  | holdShape shape => exact .onHeap (.holdShape shape) fun _ => within
  | releaseShape shape => exact .onHeap (.releaseShape shape) fun _ => within
  | inspect =>
      intro left right worlds
      have same : right.heap = left.heap := simulation.heap_eq within worlds
      exact .pure worlds same

/-- Similar scripts agree. -/
theorem exec_agrees {α : Type} {script : Script σ α} {script' : Script τ α}
    (similar : simulation.Similar script script') :
    simulation.Agrees (script.exec (Request.perform first)) fun fuel =>
      script'.exec (Request.perform (second fuel)) := by
  induction similar with
  | done result => exact .pure result
  | ask request admitted rest inductionHypothesis =>
      exact .bind (.attempt (dispatches.perform_agrees admitted)) inductionHypothesis
  | look rest inductionHypothesis =>
      intro left right worlds
      exact inductionHypothesis left right worlds left right worlds
  | update keeps rest inductionHypothesis =>
      intro left right worlds
      exact inductionHypothesis _ _ (keeps left right worlds)
  | note keeps rest inductionHypothesis =>
      intro left right worlds
      exact inductionHypothesis _ _ (keeps left right worlds)

/-! ### One method -/

omit dispatches in
/-- The exotic method has to agree in a frame only, and the ordinary one only for an object
that is not exotic. -/
theorem byKind_follows {inner : Simulation σ τ} {α : Type} (id : ObjectId)
    {exotic ordinary : Exec σ α} {exotic' ordinary' : Nat → Exec τ α} {left : World σ}
    {right : World τ} (worlds : simulation.related left right)
    (enters : left.heap.isExotic id = true → simulation.Enters inner id left right)
    (exotics : inner.Agrees exotic exotic')
    (ordinaries : left.heap.isExotic id = false →
      simulation.Follows (ordinary left) fun fuel => ordinary' fuel right) :
    simulation.Follows (byKind id exotic ordinary left) fun fuel =>
      byKind id (exotic' fuel) (ordinary' fuel) right := by
  refine .withHeap ?_
  rw [(simulation.alike worlds).isExotic_eq]
  split
  · rename_i isExotic
    exact enters isExotic exotics
  · rename_i notExotic
    exact ordinaries (Bool.not_eq_true _ ▸ notExotic)

omit dispatches in
theorem byKind_agrees (frames : simulation.FramesAlike) {α : Type} (id : ObjectId)
    {exotic ordinary : Exec σ α} {exotic' ordinary' : Nat → Exec τ α}
    (exotics : simulation.Agrees exotic exotic')
    (ordinaries : ∀ left right, simulation.related left right →
      left.heap.isExotic id = false →
        simulation.Follows (ordinary left) fun fuel => ordinary' fuel right) :
    simulation.Agrees (byKind id exotic ordinary) fun fuel =>
      byKind id (exotic' fuel) (ordinary' fuel) :=
  fun left right worlds => byKind_follows id worlds (fun _ => frames.enters id worlds) exotics
    (ordinaries left right worlds)

omit dispatches in
/-- Running the code of a function agrees. -/
def CodeAgrees (simulation : Simulation σ τ) (first : Dispatch σ) (second : Nat → Dispatch τ)
    (host : Host σ) (host' : Host τ) : Prop :=
  ∀ code this arguments,
    simulation.Agrees ((host code this arguments).exec (Request.perform first)) fun fuel =>
      (host' code this arguments).exec (Request.perform (second fuel))

theorem codeAgrees {host : Host σ} {host' : Host τ}
    (hosts : simulation.SimilarHosts host host') :
    CodeAgrees simulation first second host host' :=
  fun code this arguments => dispatches.exec_agrees (hosts code this arguments)

theorem callObject_agrees {host : Host σ} {host' : Host τ}
    (codes : CodeAgrees simulation first second host host') (id : ObjectId) (this : Value)
    (arguments : List Value) :
    simulation.Agrees (callObject host first id this arguments) fun fuel =>
      callObject host' (second fuel) id this arguments := by
  refine .observing fun left right alike => ?_
  rw [alike.kind_eq]
  split
  · exact .typeError _
  · rename_i code _
    exact .bind (codes code this arguments) fun result => .ofExcept result
  · rename_i proxy _
    exact .bind (.onHeap (.revoke proxy) fun _ => trivial) fun _ => .pure _
  · split
    · exact .typeError _
    · exact dispatches.method _ trivial

/-- One method from related worlds. A proxy's goes on as the simulation inside its frame
says, and only a call runs user code. -/
theorem step_follows {inner : Simulation σ τ} (inners : inner.Dispatches first second)
    {host : Host σ} {host' : Host τ} {method : Call} (within : method.Within simulation.scope)
    (innerWithin : method.Within inner.scope)
    (calls : ∀ id this arguments, method = .call id this arguments →
      simulation.Agrees (callObject host first id this arguments) fun fuel =>
        callObject host' (second fuel) id this arguments)
    {left : World σ} {right : World τ} (worlds : simulation.related left right)
    (enters : ∀ id, method.framed? = some id → left.heap.isExotic id = true →
      simulation.Enters inner id left right) :
    simulation.Follows (Call.step host first method left) fun fuel =>
      Call.step host' (second fuel) method right := by
  cases method with
  | getPrototypeOf id =>
      exact byKind_follows id worlds (enters id rfl) (inners.proxyGetPrototypeOf_agrees id)
        fun _ => .withHeap (.pure worlds ((simulation.alike worlds).prototype_eq id))
  | setPrototypeOf id prototype =>
      exact byKind_follows id worlds (enters id rfl)
        (inners.proxySetPrototypeOf_agrees id innerWithin) fun ordinary =>
          .onHeap worlds (.setPrototypeOf id prototype) ⟨ordinary, within⟩ (fun answer => answer)
            rfl rfl
  | isExtensible id =>
      exact byKind_follows id worlds (enters id rfl) (inners.proxyIsExtensible_agrees id)
        fun _ => .withHeap (.pure worlds ((simulation.alike worlds).isExtensible_eq id))
  | preventExtensions id =>
      exact byKind_follows id worlds (enters id rfl) (inners.proxyPreventExtensions_agrees id)
        fun ordinary => .onHeap worlds (.preventExtensions id) ordinary (fun _ => .accepted)
          rfl rfl
  | getOwnProperty id key =>
      exact byKind_follows id worlds (enters id rfl) (inners.proxyGetOwnProperty_agrees id key)
        fun _ => .withHeap (.pure worlds ((simulation.alike worlds).getOwn_eq id key))
  | defineOwnProperty id key change =>
      exact byKind_follows id worlds (enters id rfl)
        (inners.proxyDefineOwnProperty_agrees id key innerWithin) fun ordinary =>
          .onHeapOrRaise worlds (.defineOwn id key change) ⟨ordinary, within⟩
            (fun answer => answer) rfl rfl
  | has id key =>
      exact byKind_follows id worlds (enters id rfl) (inners.proxyHas_agrees id key)
        fun _ => dispatches.ordinaryHas_agrees id key left right worlds
  | get id key receiver =>
      exact byKind_follows id worlds (enters id rfl) (inners.proxyGet_agrees id key receiver)
        fun _ => dispatches.ordinaryGet_agrees id key receiver left right worlds
  | set id key value receiver =>
      exact byKind_follows id worlds (enters id rfl)
        (inners.proxySet_agrees id key value receiver)
        fun _ => dispatches.ordinarySet_agrees id key value receiver left right worlds
  | delete id key =>
      exact byKind_follows id worlds (enters id rfl) (inners.proxyDelete_agrees id key)
        fun ordinary => .onHeap worlds (.deleteOwn id key) ordinary (fun answer => answer)
          rfl rfl
  | ownKeys id strings symbols =>
      refine .bind (byKind_follows id worlds (enters id rfl) (inners.proxyOwnKeys_agrees id)
        fun _ => ?_) fun _ _ _ _ worlds => .pure worlds rfl
      exact .withHeap (.pure worlds ((simulation.alike worlds).ownKeys_eq id))
  | call id this arguments => exact calls id this arguments rfl left right worlds

theorem step_agrees_of_call (frames : simulation.FramesAlike) {host : Host σ} {host' : Host τ}
    {method : Call} (within : method.Within simulation.scope)
    (calls : ∀ id this arguments, method = .call id this arguments →
      simulation.Agrees (callObject host first id this arguments) fun fuel =>
        callObject host' (second fuel) id this arguments) :
    simulation.Agrees (Call.step host first method) fun fuel =>
      Call.step host' (second fuel) method :=
  fun _ _ worlds => dispatches.step_follows dispatches within within calls worlds
    fun id _ _ => frames.enters id worlds

/-- A method agrees if the methods and the user code that it calls agree. -/
theorem step_agrees (frames : simulation.FramesAlike) {host : Host σ} {host' : Host τ}
    (codes : CodeAgrees simulation first second host host') {method : Call}
    (within : method.Within simulation.scope) :
    simulation.Agrees (Call.step host first method) fun fuel =>
      Call.step host' (second fuel) method :=
  dispatches.step_agrees_of_call frames within fun id this arguments _ =>
    dispatches.callObject_agrees codes id this arguments

end Simulation.Dispatches

/-! ### Runs -/

namespace Simulation

variable {simulation : Simulation σ τ} (free : ¬ simulation.scope.writable)
  (frames : simulation.FramesAlike) {host : Host σ} {host' : Host τ}
  (hosts : simulation.SimilarHosts host host')

include free frames hosts

/-- Runs with the same fuel agree. -/
theorem run_dispatches (fuel : Nat) :
    simulation.Dispatches (Call.run host fuel) fun _ => Call.run host' fuel := by
  induction fuel with
  | zero => exact ⟨fun _ _ => .outOfFuel, fun needed => absurd needed free⟩
  | succ fuel inductionHypothesis =>
      have codes := inductionHypothesis.codeAgrees hosts
      exact ⟨fun _ within => inductionHypothesis.step_agrees frames codes within,
        fun needed => absurd needed free⟩

theorem run_agrees {α : Type} {script : Script σ α} {script' : Script τ α}
    (similar : simulation.Similar script script') (fuel : Nat) :
    simulation.Agrees (script.run host fuel) fun _ => script'.run host' fuel :=
  (run_dispatches free frames hosts fuel).exec_agrees similar

end Simulation

/-! ### One program on both sides -/

/-- A script that asks for what is within the scope. -/
inductive Script.IsWithin (scope : Scope) {α : Type} : Script σ α → Prop
  | done (result : α) : IsWithin scope (.done result)
  | ask (request : Request) (within : request.Within scope)
      {next : Except Error request.Answer → Script σ α}
      (rest : ∀ answer, IsWithin scope (next answer)) : IsWithin scope (.ask request next)
  | look {next : σ → Script σ α} (rest : ∀ state, IsWithin scope (next state)) :
      IsWithin scope (.look next)
  | update (change : σ → σ) {next : Script σ α} (rest : IsWithin scope next) :
      IsWithin scope (.update change next)

/-- User code that asks for what is within the scope. -/
def Host.IsWithin (scope : Scope) (host : Host σ) : Prop :=
  ∀ code this arguments, (host code this arguments).IsWithin scope

/-- Where the states of user code are the same, a program is similar to itself. -/
theorem Script.IsWithin.similar {simulation : Simulation σ σ} {α : Type} {script : Script σ α}
    (within : script.IsWithin simulation.scope)
    (client_eq : ∀ {left right}, simulation.related left right → right.client = left.client)
    (keeps : ∀ {left right}, simulation.related left right → ∀ client,
      simulation.related { left with client := client } { right with client := client }) :
    simulation.Similar script script := by
  induction within with
  | done result => exact .done result
  | ask request within rest inductionHypothesis =>
      exact .ask request (simulation.admits_of_within within) inductionHypothesis
  | look rest inductionHypothesis =>
      refine .look fun left right worlds => ?_
      rw [client_eq worlds]
      exact inductionHypothesis left.client
  | update change rest inductionHypothesis =>
      refine .update (fun left right worlds => ?_) inductionHypothesis
      rw [client_eq worlds]
      exact keeps worlds _

end ObjectModel
