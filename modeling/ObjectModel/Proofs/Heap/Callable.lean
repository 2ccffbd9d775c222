import ObjectModel.Proofs.Heap.Built
import ObjectModel.Proofs.Heap.Description

/-!
Contract: what can be called, and what a call of it comes to.

Whether an object can be called is decided along targets, whether the proxies on the way are
revoked or not, and so never changes while all of these exist (`Heap.TargetsExist`). A call goes
the same way, but it stops at a revoked proxy (`Heap.PassesCalls`), and which proxies are revoked
does change.

Does not own: how calls run.
-/

namespace ObjectModel

/-- What a call comes to in the end: the body of a function, or a proxy that is revoked. -/
inductive Callee where
  | function (body : FunctionBody)
  | revoked
deriving DecidableEq

namespace Heap

/-- A proxy can be called if its target can. -/
theorem isCallable_eq (heap : Heap) (id : ObjectId) :
    heap.isCallable id =
      match heap.kind id with
      | .ordinary => false
      | .function _ _ => true
      | .proxy link => heap.isCallable link.target := by
  rw [← isCallableWithin_eq (Nat.le_succ heap.objects.size) id, isCallableWithin]
  rfl

theorem isCallable_of_proxy {heap : Heap} {id : ObjectId} {link : ProxyLink}
    (isProxy : heap.kind id = .proxy link) : heap.isCallable id = heap.isCallable link.target := by
  rw [isCallable_eq, isProxy]

/-! ### Targets that exist -/

/-- The object exists, and so do all objects along the targets from it. -/
inductive TargetsExist (heap : Heap) : ObjectId → Prop
  | last {id : ObjectId} (inRange : id < heap.objects.size) (notExotic : heap.isExotic id = false) :
      TargetsExist heap id
  | proxy {id : ObjectId} {link : ProxyLink} (isProxy : heap.kind id = .proxy link)
      (target : TargetsExist heap link.target) : TargetsExist heap id

/-- Where proxies are younger than their targets, all targets exist. -/
theorem TargetsFirst.targetsExist {heap : Heap} (first : heap.TargetsFirst) {id : ObjectId}
    (inRange : id < heap.objects.size) : heap.TargetsExist id := by
  induction id using Nat.strong_induction_on with
  | _ id inductionHypothesis =>
      cases isProxy : heap.proxy? id with
      | none => exact .last inRange (by rw [isExotic, isProxy, Option.isSome_none])
      | some link =>
          have younger := first id link isProxy
          exact .proxy (proxy?_eq_some.mp isProxy)
            (inductionHypothesis link.target younger (Nat.lt_trans younger inRange))

/-- An object that can be called has targets up to a function. -/
theorem targetsExist_of_isCallable {heap : Heap} {id : ObjectId}
    (callable : heap.isCallable id = true) : heap.TargetsExist id := by
  rw [isCallable] at callable
  generalize heap.objects.size = steps at callable
  induction steps generalizing id with
  | zero => contradiction
  | succ steps inductionHypothesis =>
      have inRange := lt_of_isCallableWithin callable
      rw [isCallableWithin] at callable
      split at callable
      · contradiction
      · rename_i isFunction
        exact .last inRange (by rw [isExotic, proxy?, isFunction, Option.isSome_none])
      · rename_i isProxy
        exact .proxy isProxy (inductionHypothesis callable)

/-! ### What commands leave as it is -/

/-- Objects stay what they are, but proxies may be revoked. -/
structure KeepsTargets (before after : Heap) : Prop where
  size_le : before.objects.size ≤ after.objects.size
  kind_eq : ∀ id, id < before.objects.size → after.kind id = before.kind id ∨
    ∃ link, before.kind id = .proxy link ∧ after.kind id = .proxy { link with revoked := true }

theorem Follows.keepsTargets {before after : Heap} (follows : before.Follows after) :
    before.KeepsTargets after :=
  ⟨follows.size_le, follows.kind_eq⟩

/-- A proxy keeps its target, so that it was younger before if it is younger now. -/
theorem KeepsTargets.targetsFirst {before after : Heap} (keeps : before.KeepsTargets after)
    (first : after.TargetsFirst) : before.TargetsFirst := by
  intro proxy link isProxy
  rw [proxy?_eq_some] at isProxy
  rcases keeps.kind_eq proxy (lt_of_isExotic (isExotic_of_kind isProxy)) with
    same | ⟨link', wasProxy, isRevoked⟩
  · exact first proxy link (proxy?_eq_some.mpr (same.trans isProxy))
  · cases isProxy.symm.trans wasProxy
    exact first proxy { link with revoked := true } (proxy?_eq_some.mpr isRevoked)

/-- Every command leaves targets as they are, allowed or not. -/
theorem Command.keepsTargets {heap : Heap} (wellFormed : heap.WellFormed) (command : Command) :
    heap.KeepsTargets (command.run heap).1 := by
  cases command with
  | addStore _ | allocate _ _ _ _ | describe _ _ | revoke _ =>
      exact (Command.follows wellFormed _ (by trivial)).keepsTargets
  | _ =>
      exact ⟨Command.size_le wellFormed _,
        fun id _ => .inl (Command.kind_eq wellFormed (by trivial) id)⟩

/-- What can be called is then the same, for objects whose targets exist. -/
theorem KeepsTargets.isCallable_eq {before after : Heap} (keeps : before.KeepsTargets after)
    {id : ObjectId} (exist : before.TargetsExist id) :
    after.TargetsExist id ∧ after.isCallable id = before.isCallable id := by
  induction exist with
  | @last id inRange notExotic =>
      have same : after.kind id = before.kind id := by
        rcases keeps.kind_eq id inRange with same | ⟨link, wasProxy, -⟩
        · exact same
        · rw [isExotic_of_kind wasProxy] at notExotic
          contradiction
      refine ⟨.last (Nat.lt_of_lt_of_le inRange keeps.size_le) ?_, ?_⟩
      · rw [isExotic_congr same, notExotic]
      · rw [Heap.isCallable_eq after, same, Heap.isCallable_eq before]
        cases isKind : before.kind id with
        | ordinary => rfl
        | function name body => rfl
        | proxy link =>
            rw [isExotic_of_kind isKind] at notExotic
            contradiction
  | @proxy id link isProxy _ inductionHypothesis =>
      obtain ⟨targets, callable⟩ := inductionHypothesis
      rw [isCallable_of_proxy isProxy, ← callable]
      rcases keeps.kind_eq id (lt_of_isExotic (isExotic_of_kind isProxy)) with
        same | ⟨link', wasProxy, isRevoked⟩
      · have isProxy' := same.trans isProxy
        exact ⟨.proxy isProxy' targets, isCallable_of_proxy isProxy'⟩
      · cases isProxy.symm.trans wasProxy
        have same := isCallable_of_proxy isRevoked
        exact ⟨.proxy isRevoked targets, same⟩

/-- Commands lead from one heap to the other. -/
def Becomes (before after : Heap) : Prop :=
  ∃ commands, after = Command.runAll before commands

theorem Becomes.refl (heap : Heap) : heap.Becomes heap :=
  ⟨[], rfl⟩

theorem Becomes.wellFormed {before after : Heap} (becomes : before.Becomes after)
    (wellFormed : before.WellFormed) : after.WellFormed := by
  obtain ⟨commands, rfl⟩ := becomes
  exact Command.runAll_keeps (fun _ wellFormed => Command.wellFormed wellFormed) wellFormed commands

theorem Becomes.command {before after : Heap} (becomes : before.Becomes after)
    (command : Command) : before.Becomes (command.run after).1 := by
  obtain ⟨commands, rfl⟩ := becomes
  exact ⟨commands ++ [command], (Command.runAll_concat before commands command).symm⟩

/-- Whatever commands are taken, an object can be called exactly if it could be before. -/
theorem Becomes.isCallable_eq {before after : Heap} (becomes : before.Becomes after)
    (wellFormed : before.WellFormed) {id : ObjectId} (exist : before.TargetsExist id) :
    after.isCallable id = before.isCallable id := by
  obtain ⟨commands, rfl⟩ := becomes
  let holds := fun heap : Heap => heap.WellFormed ∧ heap.TargetsExist id ∧
    heap.isCallable id = before.isCallable id
  have kept : ∀ heap, holds heap → ∀ command : Command, holds (command.run heap).1 := by
    rintro heap ⟨wellFormed, exist, callable⟩ command
    obtain ⟨exist', callable'⟩ := (command.keepsTargets wellFormed).isCallable_eq exist
    exact ⟨command.wellFormed wellFormed, exist', callable'.trans callable⟩
  exact (Command.runAll_keeps kept ⟨wellFormed, exist, rfl⟩ commands).2.2

/-- Proxies that are younger than their targets have been so before. -/
theorem Becomes.targetsFirst {before after : Heap} (becomes : before.Becomes after)
    (wellFormed : before.WellFormed) (first : after.TargetsFirst) : before.TargetsFirst := by
  obtain ⟨commands, rfl⟩ := becomes
  let holds := fun heap : Heap => heap.WellFormed ∧ (heap.TargetsFirst → before.TargetsFirst)
  have kept : ∀ heap, holds heap → ∀ command : Command, holds (command.run heap).1 := by
    rintro heap ⟨wellFormed, earlier⟩ command
    refine ⟨command.wellFormed wellFormed, fun first => earlier ?_⟩
    exact (command.keepsTargets wellFormed).targetsFirst first
  exact (Command.runAll_keeps kept ⟨wellFormed, id⟩ commands).2 first

theorem Becomes.isCallable {before after : Heap} (becomes : before.Becomes after)
    (wellFormed : before.WellFormed) {id : ObjectId} (callable : before.isCallable id = true) :
    after.isCallable id = true := by
  rw [becomes.isCallable_eq wellFormed (targetsExist_of_isCallable callable), callable]

/-! ### The way of a call -/

/-- A call of the object is passed on from proxy to target this often, and then has come to
this. -/
inductive PassesCalls (heap : Heap) : (steps : Nat) → ObjectId → Callee → Prop
  | function {id : ObjectId} {name : String} {body : FunctionBody}
      (isFunction : heap.kind id = .function name body) : PassesCalls heap 0 id (.function body)
  | revoked {id : ObjectId} {link : ProxyLink} (isProxy : heap.kind id = .proxy link)
      (isRevoked : link.revoked = true) : PassesCalls heap 0 id .revoked
  | target {steps : Nat} {id : ObjectId} {link : ProxyLink} {callee : Callee}
      (isProxy : heap.kind id = .proxy link) (isLive : link.revoked = false)
      (rest : PassesCalls heap steps link.target callee) : PassesCalls heap (steps + 1) id callee

/-- A call of something that can be called never comes to a plain object. -/
theorem exists_passesCalls {heap : Heap} {id : ObjectId} (callable : heap.isCallable id = true) :
    ∃ steps callee, heap.PassesCalls steps id callee := by
  have exist := targetsExist_of_isCallable callable
  induction exist with
  | @last id _ notExotic =>
      rw [Heap.isCallable_eq] at callable
      cases isKind : heap.kind id with
      | ordinary =>
          rw [isKind] at callable
          contradiction
      | function name body => exact ⟨0, _, .function isKind⟩
      | proxy link =>
          rw [isExotic_of_kind isKind] at notExotic
          contradiction
  | @proxy id link isProxy _ inductionHypothesis =>
      cases isRevoked : link.revoked with
      | true => exact ⟨0, _, .revoked isProxy isRevoked⟩
      | false =>
          rw [isCallable_of_proxy isProxy] at callable
          obtain ⟨steps, callee, passes⟩ := inductionHypothesis callable
          exact ⟨steps + 1, callee, .target isProxy isRevoked passes⟩

/-- There is one way only. -/
theorem PassesCalls.unique {heap : Heap} {steps steps' : Nat} {id : ObjectId}
    {callee callee' : Callee} (passes : heap.PassesCalls steps id callee)
    (passes' : heap.PassesCalls steps' id callee') : steps = steps' ∧ callee = callee' := by
  induction passes generalizing steps' with
  | function isFunction =>
      cases passes' with
      | function isFunction' =>
          cases isFunction.symm.trans isFunction'
          exact ⟨rfl, rfl⟩
      | revoked isProxy _ | target isProxy _ _ => cases isFunction.symm.trans isProxy
  | revoked isProxy isRevoked =>
      cases passes' with
      | function isFunction => cases isProxy.symm.trans isFunction
      | revoked _ _ => exact ⟨rfl, rfl⟩
      | target isProxy' isLive _ =>
          cases isProxy.symm.trans isProxy'
          rw [isRevoked] at isLive
          contradiction
  | target isProxy isLive _ inductionHypothesis =>
      cases passes' with
      | function isFunction => cases isProxy.symm.trans isFunction
      | revoked isProxy' isRevoked =>
          cases isProxy.symm.trans isProxy'
          rw [isLive] at isRevoked
          contradiction
      | target isProxy' _ rest =>
          cases isProxy.symm.trans isProxy'
          obtain ⟨rfl, rfl⟩ := inductionHypothesis rest
          exact ⟨rfl, rfl⟩

theorem PassesCalls.congr {before after : Heap} (kind_eq : ∀ id, after.kind id = before.kind id)
    {steps : Nat} {id : ObjectId} {callee : Callee} (passes : before.PassesCalls steps id callee) :
    after.PassesCalls steps id callee := by
  induction passes with
  | function isFunction => exact .function ((kind_eq _).trans isFunction)
  | revoked isProxy isRevoked => exact .revoked ((kind_eq _).trans isProxy) isRevoked
  | target isProxy isLive _ inductionHypothesis =>
      exact .target ((kind_eq _).trans isProxy) isLive inductionHypothesis

end Heap

end ObjectModel
