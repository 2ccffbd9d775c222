import ObjectModel.Proofs.Machine.Simulation

/-!
Contract: internal methods agree if the methods that they call agree.

Every method is built from the parts of `ObjectModel.Proofs.Machine.Simulation`, so there is
one lemma for each, along its definition.

The write in place of `Machine.setWithOwn` is the one command whose place was not looked up
just before. A simulation that has to know that the property is writable gets this from the
description before it.
-/

namespace ObjectModel

open Heap (Command)

variable {σ τ : Type}

/-- What a dispatch reports of an object that is not exotic is what the object has. -/
def ReadsOwn (dispatch : Dispatch σ) (world : World σ) : Prop :=
  ∀ (id : ObjectId) (key : PropertyKey) (current : Descriptor) (after : World σ),
    dispatch (.getOwnProperty id key) world = .ok (some current) after →
      after.heap.isExotic id = false → after.heap.getOwn id key = some current

namespace Simulation

/-- Dispatches that agree on every method within the scope. -/
structure Dispatches (simulation : Simulation σ τ) (first : Dispatch σ)
    (second : Nat → Dispatch τ) : Prop where
  method : ∀ method : Call, method.Within simulation.scope →
    simulation.Agrees (first method) fun fuel => second fuel method
  readsOwn : simulation.scope.writable → ∀ {left : World σ} {right : World τ},
    simulation.related left right → ReadsOwn first left

variable {simulation : Simulation σ τ}

/-- An accessor field is checked alike. -/
theorem checkAccessor_agrees (role : AccessorRole) (field : Option Value) :
    simulation.Agrees (Machine.checkAccessor role field) fun _ =>
      Machine.checkAccessor role field := by
  cases field with
  | none => exact .pure ()
  | some value =>
      refine .observing fun left right alike => ?_
      rw [alike.isFunction_eq]
      split
      · exact .pure ()
      · exact .typeError _

/-- A description of a writable data property says that there is one. -/
private theorem lookup_of_getOwn {heap : Heap} {id : ObjectId} {key : PropertyKey}
    {current : Descriptor} (found : heap.getOwn id key = some current)
    (isData : current.isAccessor = false) (isWritable : current.isWritable = true) :
    ∃ attributes old, heap.lookup id key = some (attributes, .data old) ∧
      attributes.writable = true := by
  obtain ⟨⟨attributes, slot⟩, stored, rfl⟩ := Option.map_eq_some_iff.mp found
  cases slot with
  | data old => exact ⟨attributes, old, stored, isWritable⟩
  | accessor getter setter => contradiction

namespace Dispatches

variable {first : Dispatch σ} {second : Nat → Dispatch τ}
  (dispatches : simulation.Dispatches first second)

include dispatches

/-! ### Descriptions -/

theorem readField_agrees (id : ObjectId) (name : String) :
    simulation.Agrees (Machine.readField first id name) fun fuel =>
      Machine.readField (second fuel) id name := by
  refine .bind (dispatches.method _ trivial) fun present => ?_
  cases present with
  | false => exact .pure none
  | true => exact .bind (dispatches.method _ trivial) fun _ => .pure _

theorem withField_agrees {α : Type} (id : ObjectId) (name : String)
    {rest : Option Value → Exec σ α} {rest' : Nat → Option Value → Exec τ α}
    (agrees : ∀ field, simulation.Agrees (rest field) fun fuel => rest' fuel field) :
    simulation.Agrees (Machine.withField first id name rest) fun fuel =>
      Machine.withField (second fuel) id name (rest' fuel) :=
  .bind (dispatches.readField_agrees id name) fun field => .holding _ (agrees field)

theorem readDescription_agrees (value : Value) :
    simulation.Agrees (Machine.readDescription first value) fun fuel =>
      Machine.readDescription (second fuel) value := by
  cases value with
  | object id =>
      refine dispatches.withField_agrees id _ fun stored => ?_
      refine dispatches.withField_agrees id _ fun writable => ?_
      refine dispatches.withField_agrees id _ fun getter => ?_
      refine dispatches.withField_agrees id _ fun setter => ?_
      refine dispatches.withField_agrees id _ fun enumerable => ?_
      refine dispatches.withField_agrees id _ fun configurable => ?_
      refine .bind (checkAccessor_agrees _ _) fun _ => ?_
      refine .bind (checkAccessor_agrees _ _) fun _ => ?_
      simp only
      split
      · exact .typeError _
      · exact .pure _
  | _ => exact .typeError _

/-! ### Lookups -/

theorem readSlot_agrees (inHand : List ObjectId) (receiver : Value) (slot : Slot) :
    simulation.Agrees (Machine.readSlot first inHand receiver slot) fun fuel =>
      Machine.readSlot (second fuel) inHand receiver slot := by
  cases slot with
  | data value => exact .pure value
  | accessor getter setter =>
      cases getter with
      | none => exact .pure _
      | some getter => exact .holding _ (dispatches.method _ trivial)

theorem ordinaryGet_agrees (id : ObjectId) (key : PropertyKey) (receiver : Value) :
    simulation.Agrees (Machine.ordinaryGet first id key receiver) fun fuel =>
      Machine.ordinaryGet (second fuel) id key receiver := by
  refine .observing fun left right alike => ?_
  simp only [alike.findProperty_eq, alike.inHand_eq]
  cases left.findProperty id key with
  | found holder attributes slot =>
      exact .bind (dispatches.readSlot_agrees _ _ _) fun _ => .pure _
  | exotic next => exact .holding _ (dispatches.method (.get next key receiver) trivial)
  | missing => exact .pure none

theorem ordinaryHas_agrees (id : ObjectId) (key : PropertyKey) :
    simulation.Agrees (Machine.ordinaryHas first id key) fun fuel =>
      Machine.ordinaryHas (second fuel) id key := by
  refine .observing fun left right alike => ?_
  rw [alike.findProperty_eq]
  cases left.findProperty id key with
  | found holder attributes slot => exact .pure true
  | exotic next => exact .holding _ (dispatches.method (.has next key) trivial)
  | missing => exact .pure false

theorem setWithOwn_agrees (own : Descriptor) (key : PropertyKey) (value receiver : Value) :
    simulation.Agrees (Machine.setWithOwn first own key value receiver) fun fuel =>
      Machine.setWithOwn (second fuel) own key value receiver := by
  unfold Machine.setWithOwn
  split
  · split
    · exact .bind (dispatches.method _ trivial) fun _ => .pure _
    · exact .pure _
  split
  · exact .pure _
  split
  · rename_i target
    intro left right worlds
    have described := dispatches.method (.getOwnProperty target key) trivial left right worlds
    refine .bind described fun existing before before' ended worlds' => ?_
    cases existing with
    | none =>
        have created := dispatches.method (.createData target key value)
          (simulation.scope.changes_of_not_mixed rfl)
        exact created before before' worlds'
    | some existing =>
        simp only
        split
        · exact .pure worlds' rfl
        split
        · exact .pure worlds' rfl
        rename_i notAccessor notReadOnly
        have alike := simulation.alike worlds'
        refine .withHeap ?_
        rw [alike.isExotic_eq, alike.hasData_eq]
        split
        · rename_i inPlace
          rw [Bool.and_eq_true, Bool.not_eq_true'] at inPlace
          have writable : simulation.scope.writable → ∃ attributes old,
              before.heap.lookup target key = some (attributes, .data old) ∧
                attributes.writable = true := fun needed =>
            lookup_of_getOwn
              (dispatches.readsOwn needed worlds target key existing before ended inPlace.1)
              (Bool.not_eq_true _ ▸ notAccessor) (by simpa using notReadOnly)
          exact .bind (.onHeap worlds' (.writeData target key value) ⟨inPlace.1, writable⟩
            id rfl rfl) fun _ _ _ _ worlds'' => .pure worlds'' rfl
        · exact Agrees.holding _ (dispatches.method (.defineOwnProperty target key _)
            (simulation.scope.changes_of_not_mixed rfl)) _ _ worlds'
  · exact .pure _

theorem ordinarySet_agrees (id : ObjectId) (key : PropertyKey) (value receiver : Value) :
    simulation.Agrees (Machine.ordinarySet first id key value receiver) fun fuel =>
      Machine.ordinarySet (second fuel) id key value receiver := by
  refine .observing fun left right alike => ?_
  simp only [alike.findProperty_eq, alike.inHand_eq]
  cases left.findProperty id key with
  | found holder attributes slot =>
      exact .holding _ (dispatches.setWithOwn_agrees _ key value receiver)
  | exotic next => exact .holding _ (dispatches.method (.set next key value receiver) trivial)
  | missing => exact dispatches.setWithOwn_agrees _ key value receiver

end Dispatches

end Simulation

end ObjectModel
