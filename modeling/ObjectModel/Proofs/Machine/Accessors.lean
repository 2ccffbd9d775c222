import ObjectModel.Proofs.Heap.Accessors
import ObjectModel.Proofs.Machine.Linking

/-!
Contract: reading and writing through accessors.

At every moment of a run the functions that accessors hold can be called, and what can be called
stays so. A read through an accessor therefore comes to a function or to a proxy that is revoked
(`Heap.RunsAccessors`); that an object is no function is never raised for the getter or the setter
itself, though a function that it calls may raise it for something else.
-/

namespace ObjectModel

variable {σ α : Type}

/-! ### Calls -/

namespace Callee

/-- What a call does once it has come to this. -/
def run (host : Host σ) (dispatch : Dispatch σ) (this : Value) (arguments : List Value) :
    Callee → Exec σ Value
  | .function (.code code) => do
      Exec.ofExcept (← (host code this arguments).exec (Request.perform dispatch))
  | .function (.revoke proxy) => do
      Exec.changeHeap (·.revoke proxy)
      return .undefined
  | .revoked => Exec.typeError .revokedCall

/-- The same at the end of a way of this length, with the fuel that there was at its start. -/
def runAfter (host : Host σ) (steps fuel : Nat) (this : Value) (arguments : List Value)
    (callee : Callee) : Exec σ Value :=
  if steps < fuel then callee.run host (Call.run host (fuel - (steps + 1))) this arguments
  else Exec.outOfFuel

theorem runAfter_succ (host : Host σ) (steps fuel : Nat) (this : Value) (arguments : List Value)
    (callee : Callee) :
    callee.runAfter host (steps + 1) (fuel + 1) this arguments =
      callee.runAfter host steps fuel this arguments := by
  simp only [runAfter, Nat.add_lt_add_iff_right, Nat.add_sub_add_right]

end Callee

/-- A call goes its way, unless it runs out of fuel on it. -/
theorem Heap.PassesCalls.run_call {world : World σ} {steps : Nat} {id : ObjectId}
    {callee : Callee} (passes : world.heap.PassesCalls steps id callee) (host : Host σ)
    (fuel : Nat) (this : Value) (arguments : List Value) :
    Call.run host fuel (.call id this arguments) world =
      callee.runAfter host steps fuel this arguments world := by
  induction passes generalizing fuel with
  | @function id name body isFunction =>
      cases fuel with
      | zero => rfl
      | succ fuel =>
          rw [Call.run, Call.step, Machine.callObject, Exec.heap_bind, isFunction]
          cases body <;> rfl
  | revoked isProxy isRevoked =>
      cases fuel with
      | zero => rfl
      | succ fuel =>
          rw [Call.run, Call.step, Machine.callObject, Exec.heap_bind, isProxy]
          simp only [isRevoked, if_true]
          rfl
  | target isProxy isLive _ inductionHypothesis =>
      cases fuel with
      | zero => rfl
      | succ fuel =>
          rw [Call.run, Call.step, Machine.callObject, Exec.heap_bind, isProxy,
            Callee.runAfter_succ, ← inductionHypothesis]
          simp only [isLive, Bool.false_eq_true, if_false]

/-! ### Accessors -/

theorem Heap.lookup_of_findProperty {heap : Heap} {id holder : ObjectId} {key : PropertyKey}
    {attributes : Attributes} {slot : Slot}
    (found : heap.findProperty id key = .found holder attributes slot) :
    heap.lookup holder key = some (attributes, slot) := by
  rw [findProperty] at found
  generalize heap.walk (some id) = steps at found
  induction steps with
  | nil => cases found
  | cons step rest inductionHypothesis =>
      cases step with
      | exotic id => cases found
      | ordinary id =>
          rw [searchChain] at found
          split at found
          · rename_i stored
            cases found
            exact stored
          · exact inductionHypothesis found

/-- Reading and writing the property, whose getter and setter were found on the holder. A getter
is called with the receiver, and its answer is the value; a setter is called with the value, and
its answer is dropped. Both calls come to a function or to a proxy that is revoked. -/
structure Heap.RunsAccessors (heap : Heap) (id : ObjectId) (key : PropertyKey)
    (holder : ObjectId) (getter setter : Option ObjectId) : Prop where
  reads : ∀ function ∈ getter, ∃ steps callee, heap.PassesCalls steps function callee ∧
    ∀ {σ : Type} (host : Host σ) (fuel depth : Nat) (client : σ) (receiver : Value),
      let inHand := heap.inHand holder (.accessor getter setter)
      let called := callee.runAfter host steps fuel receiver []
      Call.run host (fuel + 1) (.get id key receiver) ⟨heap, depth, client⟩ =
        (do return some (← Exec.holding inHand called) : Exec σ (Option Value))
          ⟨heap, depth, client⟩
  writes : ∀ function ∈ setter, ∃ steps callee, heap.PassesCalls steps function callee ∧
    ∀ {σ : Type} (host : Host σ) (fuel depth : Nat) (client : σ) (value receiver : Value),
      let inHand := heap.inHand holder (.accessor getter setter)
      let called := callee.runAfter host steps fuel receiver [value]
      Call.run host (fuel + 1) (.set id key value receiver) ⟨heap, depth, client⟩ =
        Exec.holding inHand (do let _ ← called; return Verdict.accepted) ⟨heap, depth, client⟩

/-- Accessors that can be called are run. -/
theorem Heap.AccessorsCallable.runsAccessors {heap : Heap} (callable : heap.AccessorsCallable)
    {id : ObjectId} (ordinary : heap.isExotic id = false) {key : PropertyKey} {holder : ObjectId}
    {attributes : Attributes} {getter setter : Option ObjectId}
    (found : heap.findProperty id key = .found holder attributes (.accessor getter setter)) :
    heap.RunsAccessors id key holder getter setter := by
  have stored := callable _ _ _ _ (Heap.lookup_of_findProperty found)
  have held : ∀ {steps function callee}, heap.PassesCalls steps function callee →
      (heap.holdAll (heap.inHand holder (.accessor getter setter))).PassesCalls steps function
        callee := fun passes => passes.congr (Heap.sameContent_holdAll heap _).kind_eq
  constructor
  · rintro function ⟨rfl⟩
    have isStored : function ∈ (Slot.accessor (some function) setter).functions :=
      List.mem_append_left _ (List.mem_singleton_self _)
    obtain ⟨steps, callee, passes⟩ := Heap.exists_passesCalls (stored function isStored)
    refine ⟨steps, callee, passes, ?_⟩
    intro σ host fuel depth client receiver
    have called := Call.run_get_accessor host fuel ⟨heap, depth, client⟩ ordinary found receiver
    refine called.trans (Exec.bind_congr (Exec.holding_congr ?_) _)
    exact (held passes).run_call host fuel receiver []
  · rintro function ⟨rfl⟩
    have isStored : function ∈ (Slot.accessor getter (some function)).functions :=
      List.mem_append_right _ (List.mem_singleton_self _)
    obtain ⟨steps, callee, passes⟩ := Heap.exists_passesCalls (stored function isStored)
    refine ⟨steps, callee, passes, ?_⟩
    intro σ host fuel depth client value receiver
    have called := Call.run_set_accessor host fuel ⟨heap, depth, client⟩ ordinary found value
      receiver
    refine called.trans (Exec.holding_congr (Exec.bind_congr ?_ _))
    exact (held passes).run_call host fuel receiver [value]

/-! ### Runs -/

/-- Over the moments of a run that starts on a reached heap, whatever user code does in any depth:
an object can be called later exactly if it can be called now, which holds of every object where
links are made to objects that exist; every getter and setter in a slot can be called; and reading
or writing through an accessor comes to a function or to a revoked proxy. The moments are those of
the run itself, which ends as it does without a journal. If the program is linked, and the heap is
built as those of linked programs are, then all links are made to objects that exist. -/
theorem Script.run_accessors (host : Host σ) (script : Script σ α) (fuel : Nat) (world : World σ)
    (reached : world.heap.IsReached) :
    let moments := script.grounded.moments host.grounded fuel world
    Exec.withoutJournal (script.grounded.runNoted host.grounded fuel world.withJournal) =
        script.grounded.run host.grounded fuel world ∧
      moments.Pairwise (fun before after => ∀ id,
        (before.isCallable id = true → after.isCallable id = true) ∧
          (before.TargetsExist id → after.isCallable id = before.isCallable id)) ∧
      (∀ heap ∈ moments,
        (heap.IsBuilt → ∀ id, id < heap.objects.size → heap.TargetsExist id) ∧
          heap.AccessorsCallable ∧
          ∀ id key holder attributes getter setter, heap.isExotic id = false →
            heap.findProperty id key = .found holder attributes (.accessor getter setter) →
              heap.RunsAccessors id key holder getter setter) ∧
      (world.heap.IsBuilt →
        (script.linked.moments host.linked fuel world).Pairwise fun before after =>
          ∀ id, id < before.objects.size → after.isCallable id = before.isCallable id) := by
  intro moments
  obtain ⟨sameRun, inOrder⟩ := script.grounded_moments host fuel world
  have reachable : ∀ heap ∈ moments, heap.Reachable := by
    intro heap member
    obtain ⟨commands, rfl⟩ := Script.becomes_moment inOrder member
    exact Heap.Command.runAll_keeps Heap.isKept_reachable reached.reachable commands
  refine ⟨sameRun, ?_, fun heap member => ⟨?_, ?_⟩, script.linked_isCallable host fuel⟩
  · refine inOrder.imp_of_mem fun beforeMember _ becomes id => ?_
    have wellFormed := (reachable _ beforeMember).wellFormed
    exact ⟨becomes.isCallable wellFormed, becomes.isCallable_eq wellFormed⟩
  · exact fun built id inRange => built.targetsFirst.targetsExist inRange
  · have callable := (reachable heap member).accessorsCallable
    exact ⟨callable, fun id key holder attributes getter setter ordinary found =>
      callable.runsAccessors ordinary found⟩

/-- Makes a function, a proxy of it, a proxy of that, and an object whose accessor has the second
proxy for its getter. -/
def proxiedGetter (key : PropertyKey) : Script Unit Unit :=
  .ask (.newFunction 0 none "f" 0) fun _ =>
  .ask (.newProxy 0 0 0) fun _ =>
  .ask (.newProxy 0 1 1) fun _ =>
  .ask (.newObject 0 none false) fun _ =>
  .ask (.call (.defineOwnProperty 3 key { get := some (.object 2) })) fun _ => .done ()

/-- A getter that is a proxy of a proxy of a function answers for the function, until the inner
proxy is revoked. It can still be called then, but the call fails. -/
theorem Script.run_accessors_revoked :
    let key := PropertyKey.ofString "k"
    let host : Host Unit := fun _ _ _ => .done (.ok .null)
    let made := (proxiedGetter key).linked.run host.linked 1
    let heap := (Exec.reached made ⟨.start {}, 0, ()⟩).heap
    let script : Script Unit Unit := .ask (.revoke 1) fun _ => .done ()
    let last := (Exec.reached (script.grounded.run host.grounded 1) ⟨heap, 0, ()⟩).heap
    let lastLinked := (Exec.reached (script.linked.run host.linked 1) ⟨heap, 0, ()⟩).heap
    heap.IsReached ∧ heap.IsBuilt ∧ heap.isCallable 2 = true ∧ last.isCallable 2 = true ∧
      lastLinked.isCallable 3 = heap.isCallable 3 ∧
      (∃ after, Call.run host 4 (.get 3 key .undefined) ⟨heap, 0, ()⟩ =
        .ok (some .null) ⟨after, 0, ()⟩) ∧
      ∃ after, Call.run host 4 (.get 3 key .undefined) ⟨last, 0, ()⟩ =
        .error (.error (.type .revokedCall)) ⟨after, 0, ()⟩ := by
  intro key host made heap script last lastLinked
  have linked : heap.IsLinked := ⟨Unit, Unit, host, proxiedGetter key, {}, 1, (), rfl⟩
  have inRange : 3 < heap.objects.size := by decide +kernel
  have kinds : heap.kind 2 = .proxy ⟨1, 1, false⟩ ∧ heap.kind 1 = .proxy ⟨0, 0, false⟩ ∧
    heap.kind 0 = .function "f" (.code 0) := by decide +kernel
  have kinds' : last.kind 2 = .proxy ⟨1, 1, false⟩ ∧ last.kind 1 = .proxy ⟨0, 0, true⟩ := by
    decide +kernel
  have ordinary : heap.isExotic 3 = false ∧ last.isExotic 3 = false := by decide +kernel
  have found : heap.findProperty 3 key = .found 3 ⟨false, false, false⟩ (.accessor (some 2) none) ∧
      last.findProperty 3 key = .found 3 ⟨false, false, false⟩ (.accessor (some 2) none) := by
    decide +kernel
  obtain ⟨-, constant, everywhere, linkedConstant⟩ :=
    script.run_accessors host 1 ⟨heap, 0, ()⟩ linked.isReached
  have isLast : last ∈ (script.grounded.journal host.grounded 1 ⟨heap, 0, ()⟩).map Event.heap ++
      [last] := List.mem_append_right _ (List.mem_singleton_self _)
  have isLastLinked : lastLinked ∈ (script.linked.journal host.linked 1 ⟨heap, 0, ()⟩).map
      Event.heap ++ [lastLinked] := List.mem_append_right _ (List.mem_singleton_self _)
  obtain ⟨-, callable, runs⟩ := everywhere heap List.mem_cons_self
  obtain ⟨-, -, runs'⟩ := everywhere last (List.mem_cons_of_mem _ isLast)
  have isCallable : heap.isCallable 2 = true := callable 3 key _ _
    (Heap.lookup_of_findProperty found.1) 2 List.mem_cons_self
  have stays := (List.rel_of_pairwise_cons constant isLast 2).1 isCallable
  have unchanged :=
    List.rel_of_pairwise_cons (linkedConstant linked.isBuilt) isLastLinked 3 inRange
  clear_value lastLinked last heap
  refine ⟨linked.isReached, linked.isBuilt, isCallable, stays, unchanged, ?_, ?_⟩
  · obtain ⟨steps, callee, passes, read⟩ := (runs 3 key 3 _ _ _ ordinary.1 found.1).reads 2 rfl
    obtain ⟨rfl, rfl⟩ := passes.unique
      (.target kinds.1 rfl (.target kinds.2.1 rfl (.function kinds.2.2)))
    exact ⟨_, read host 3 0 () .undefined⟩
  · obtain ⟨steps, callee, passes, read⟩ := (runs' 3 key 3 _ _ _ ordinary.2 found.2).reads 2 rfl
    obtain ⟨rfl, rfl⟩ := passes.unique (.target kinds'.1 rfl (.revoked kinds'.2 rfl))
    exact ⟨_, read host 3 0 () .undefined⟩

end ObjectModel
