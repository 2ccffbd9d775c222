import ObjectModel.Proofs.Machine.Methods

/-!
Contract: the internal methods of proxies agree if the methods that they call agree.

One lemma for each method, along its definition.
-/

namespace ObjectModel.Simulation.Dispatches

open Heap (Command)
open Machine

variable {σ τ : Type} {simulation : Simulation σ τ} {first : Dispatch σ}
  {second : Nat → Dispatch τ} (dispatches : simulation.Dispatches first second)

include dispatches

theorem findTrap_agrees (proxy : ObjectId) (trap : Trap) :
    simulation.Agrees (findTrap first proxy trap) fun fuel =>
      findTrap (second fuel) proxy trap := by
  refine .observing fun left right alike => ?_
  rw [alike.proxy?_eq]
  split
  · exact .typeError _
  split
  · exact .typeError _
  refine .bind (dispatches.method _ trivial) fun found => ?_
  split
  · exact .pure _
  · exact .pure _
  refine .observing fun left right alike => ?_
  rw [alike.isFunction_eq]
  split
  · exact .pure _
  · exact .typeError _

theorem throughTrap_agrees {α : Type} (proxy : ObjectId) (trap : Trap)
    {forward : ObjectId → Exec σ α} {forward' : Nat → ObjectId → Exec τ α}
    {consult : ObjectId → (List Value → Exec σ Value) → Exec σ α}
    {consult' : Nat → ObjectId → (List Value → Exec τ Value) → Exec τ α}
    (forwards : ∀ target,
      simulation.Agrees (forward target) fun fuel => forward' fuel target)
    (consults : ∀ target {ask : List Value → Exec σ Value} {ask' : Nat → List Value → Exec τ Value},
      (∀ arguments, simulation.Agrees (ask arguments) fun fuel => ask' fuel arguments) →
        simulation.Agrees (consult target ask) fun fuel => consult' fuel target (ask' fuel)) :
    simulation.Agrees (throughTrap first proxy trap forward consult) fun fuel =>
      throughTrap (second fuel) proxy trap (forward' fuel) (consult' fuel) := by
  refine .bind (dispatches.findTrap_agrees proxy trap) fun found => ?_
  obtain ⟨link, function⟩ := found
  cases function with
  | none => exact forwards link.target
  | some function =>
      exact .holding _ (consults link.target fun arguments =>
        dispatches.method (.call function (.object link.handler) (.object link.target :: arguments))
          trivial)

/-- The check of a prototype that a trap reported. -/
private theorem checkPrototype_agrees (target : ObjectId) (prototype : Option ObjectId) :
    simulation.Agrees
      (Exec.holding prototype.toList do
        if ← first (.isExtensible target) then return prototype
        else if (← first (.getPrototypeOf target)) = prototype then return prototype
        else Exec.violation .prototypeOfFixedTarget)
      (fun fuel => Exec.holding prototype.toList do
        if ← second fuel (.isExtensible target) then return prototype
        else if (← second fuel (.getPrototypeOf target)) = prototype then return prototype
        else Exec.violation .prototypeOfFixedTarget) := by
  refine .holding _ (.bind (dispatches.method _ trivial) fun extensible => ?_)
  split
  · exact .pure _
  refine .bind (dispatches.method _ trivial) fun current => ?_
  split
  · exact .pure _
  · exact .violation _

theorem proxyGetPrototypeOf_agrees (proxy : ObjectId) :
    simulation.Agrees (proxyGetPrototypeOf first proxy) fun fuel =>
      proxyGetPrototypeOf (second fuel) proxy := by
  refine dispatches.throughTrap_agrees _ _ (fun _ => dispatches.method _ trivial) ?_
  intro target ask ask' asks
  refine .bind (asks []) fun result => ?_
  split
  · exact dispatches.checkPrototype_agrees target _
  · exact dispatches.checkPrototype_agrees target _
  · exact .bind (.violation _) fun _ => dispatches.checkPrototype_agrees target _

theorem proxySetPrototypeOf_agrees (proxy : ObjectId) {prototype : Option ObjectId}
    (within : simulation.scope.prototypes prototype) :
    simulation.Agrees (proxySetPrototypeOf first proxy prototype) fun fuel =>
      proxySetPrototypeOf (second fuel) proxy prototype := by
  refine dispatches.throughTrap_agrees _ _
    (fun target => dispatches.method (.setPrototypeOf target prototype) within) ?_
  intro target ask ask' asks
  refine .bind (asks _) fun result => ?_
  split
  · exact .pure _
  refine .bind (dispatches.method _ trivial) fun extensible => ?_
  split
  · exact .pure _
  refine .bind (dispatches.method _ trivial) fun current => ?_
  split
  · exact .pure _
  · exact .violation _

theorem proxyIsExtensible_agrees (proxy : ObjectId) :
    simulation.Agrees (proxyIsExtensible first proxy) fun fuel =>
      proxyIsExtensible (second fuel) proxy := by
  refine dispatches.throughTrap_agrees _ _ (fun _ => dispatches.method _ trivial) ?_
  intro target ask ask' asks
  refine .bind (asks _) fun result => .bind (dispatches.method _ trivial) fun extensible => ?_
  split
  · exact .pure _
  · exact .violation _

theorem proxyPreventExtensions_agrees (proxy : ObjectId) :
    simulation.Agrees (proxyPreventExtensions first proxy) fun fuel =>
      proxyPreventExtensions (second fuel) proxy := by
  refine dispatches.throughTrap_agrees _ _
    (fun _ => .bind (dispatches.method _ trivial) fun _ => .pure _) ?_
  intro target ask ask' asks
  refine .bind (asks _) fun result => ?_
  split
  · exact .pure _
  refine .bind (dispatches.method _ trivial) fun extensible => ?_
  split
  · exact .violation _
  · exact .pure _

theorem isExtensibleWith_agrees (target : ObjectId) (current : Option Descriptor) :
    simulation.Agrees (isExtensibleWith first target current) fun fuel =>
      isExtensibleWith (second fuel) target current :=
  .holding _ (dispatches.method _ trivial)

theorem proxyGetOwnProperty_agrees (proxy : ObjectId) (key : PropertyKey) :
    simulation.Agrees (proxyGetOwnProperty first proxy key) fun fuel =>
      proxyGetOwnProperty (second fuel) proxy key := by
  refine dispatches.throughTrap_agrees _ _ (fun _ => dispatches.method _ trivial) ?_
  intro target ask ask' asks
  refine .bind (asks _) fun result => ?_
  split
  · exact .violation _
  refine .holding _ (.bind (dispatches.method _ trivial) fun current => ?_)
  refine .holding _ ?_
  split
  · split
    · exact .pure _
    split
    · exact .violation _
    refine .bind (dispatches.method _ trivial) fun extensible => ?_
    split
    · exact .pure _
    · exact .violation _
  · refine .bind (dispatches.method _ trivial) fun extensible => ?_
    refine .bind (dispatches.readDescription_agrees result) fun description => ?_
    simp only
    split
    · exact .violation _
    · exact .pure _

theorem proxyDefineOwnProperty_agrees (proxy : ObjectId) (key : PropertyKey)
    {change : Descriptor} (within : simulation.scope.changes change) :
    simulation.Agrees (proxyDefineOwnProperty first proxy key change) fun fuel =>
      proxyDefineOwnProperty (second fuel) proxy key change := by
  refine dispatches.throughTrap_agrees _ _
    (fun target => .bind (dispatches.method (.defineOwnProperty target key change) within)
      fun _ => .pure _) ?_
  intro target ask ask' asks
  refine .bind (fun left right worlds => ?_) fun description => ?_
  · have sameStore := (simulation.alike worlds).store_eq target
    exact .onHeap worlds (.describe (left.heap.object target).store change) trivial id rfl
      (by rw [sameStore]; rfl)
  refine .andFinally ?_ (fun _ => rfl) fun worlds =>
    (simulation.command worlds (.releaseAll [description]) trivial).2
  refine .bind (asks _) fun result => ?_
  split
  · exact .pure _
  refine .bind (dispatches.method _ trivial) fun current => ?_
  refine .bind (dispatches.isExtensibleWith_agrees target current) fun extensible => ?_
  split
  · exact .violation _
  · exact .pure _

theorem proxyHas_agrees (proxy : ObjectId) (key : PropertyKey) :
    simulation.Agrees (proxyHas first proxy key) fun fuel =>
      proxyHas (second fuel) proxy key := by
  refine dispatches.throughTrap_agrees _ _ (fun _ => dispatches.method _ trivial) ?_
  intro target ask ask' asks
  refine .bind (asks _) fun result => ?_
  split
  · exact .pure _
  refine .bind (dispatches.method _ trivial) fun current => ?_
  split
  · exact .pure _
  split
  · exact .violation _
  refine .bind (dispatches.isExtensibleWith_agrees target _) fun extensible => ?_
  split
  · exact .pure _
  · exact .violation _

theorem proxyGet_agrees (proxy : ObjectId) (key : PropertyKey) (receiver : Value) :
    simulation.Agrees (proxyGet first proxy key receiver) fun fuel =>
      proxyGet (second fuel) proxy key receiver := by
  refine dispatches.throughTrap_agrees _ _
    (fun _ => .bind (dispatches.method _ trivial) fun _ => .pure _) ?_
  intro target ask ask' asks
  refine .bind (asks _) fun result => ?_
  refine .bind (.holding _ (dispatches.method _ trivial)) fun current => ?_
  split
  · exact .violation _
  · exact .pure _

theorem proxySet_agrees (proxy : ObjectId) (key : PropertyKey) (value receiver : Value) :
    simulation.Agrees (proxySet first proxy key value receiver) fun fuel =>
      proxySet (second fuel) proxy key value receiver := by
  refine dispatches.throughTrap_agrees _ _
    (fun _ => .bind (dispatches.method _ trivial) fun _ => .pure _) ?_
  intro target ask ask' asks
  refine .bind (asks _) fun result => ?_
  split
  · exact .pure _
  refine .bind (dispatches.method _ trivial) fun current => ?_
  split
  · exact .violation _
  · exact .pure _

theorem proxyDelete_agrees (proxy : ObjectId) (key : PropertyKey) :
    simulation.Agrees (proxyDelete first proxy key) fun fuel =>
      proxyDelete (second fuel) proxy key := by
  refine dispatches.throughTrap_agrees _ _
    (fun _ => .bind (dispatches.method _ trivial) fun _ => .pure _) ?_
  intro target ask ask' asks
  refine .bind (asks _) fun result => ?_
  split
  · exact .pure _
  refine .bind (dispatches.method _ trivial) fun current => ?_
  split
  · exact .pure _
  split
  · exact .violation _
  refine .bind (dispatches.isExtensibleWith_agrees target _) fun extensible => ?_
  split
  · exact .pure _
  · exact .violation _

theorem readKeys_agrees (list : ObjectId) (index : Nat) (read : List PropertyKey)
    (count : Nat) :
    simulation.Agrees (readKeys first list index read count) fun fuel =>
      readKeys (second fuel) list index read count := by
  induction count generalizing index read with
  | zero => exact .pure _
  | succ count inductionHypothesis =>
      refine .bind (dispatches.method _ trivial) fun element => ?_
      split
      · exact inductionHypothesis _ _
      · exact .violation _

theorem readKeyList_agrees (value : Value) :
    simulation.Agrees (readKeyList first value) fun fuel =>
      readKeyList (second fuel) value := by
  unfold readKeyList
  split
  · refine .bind (dispatches.method _ trivial) fun length => ?_
    split
    · exact .pure _
    · exact dispatches.readKeys_agrees _ _ _ _
    · exact .violation _
  · exact .violation _

theorem splitFixedKeys_agrees (target : ObjectId) (keys : List PropertyKey) :
    simulation.Agrees (splitFixedKeys first target keys) fun fuel =>
      splitFixedKeys (second fuel) target keys := by
  induction keys with
  | nil => exact .pure _
  | cons key rest inductionHypothesis =>
      refine .bind (dispatches.method _ trivial) fun current => ?_
      refine .bind inductionHypothesis fun parts => ?_
      obtain ⟨fixed, loose⟩ := parts
      simp only
      split
      · exact .pure _
      · exact .pure _

theorem proxyOwnKeys_agrees (proxy : ObjectId) :
    simulation.Agrees (proxyOwnKeys first proxy) fun fuel =>
      proxyOwnKeys (second fuel) proxy := by
  refine dispatches.throughTrap_agrees _ _ (fun _ => dispatches.method _ trivial) ?_
  intro target ask ask' asks
  refine .bind (asks _) fun result => .holding _ ?_
  refine .bind (dispatches.readKeyList_agrees result) fun keys => ?_
  split
  · exact .violation _
  refine .bind (dispatches.method _ trivial) fun extensible => ?_
  refine .bind (dispatches.method _ trivial) fun targetKeys => ?_
  refine .bind (dispatches.splitFixedKeys_agrees target targetKeys) fun parts => ?_
  obtain ⟨fixed, loose⟩ := parts
  simp only
  split
  · exact .violation _
  · exact .pure _

end ObjectModel.Simulation.Dispatches
