import Mathlib.Data.Finset.Card
import Mathlib.Data.Finset.Range
import Mathlib.Order.Monotone.Basic
import ObjectModel.Proofs.Heap.Chain
import ObjectModel.Proofs.Heap.Definition

/-!
Contract: descriptions as objects.

`Heap.describe` adds one object to the heap (`Heap.AddsRecord`): a plain one without prototype
whose properties are the fields that are present, in their order. It adds them directly, which is
what a definition of a new property comes to (`Heap.WellFormed.defineOwn_createData`).

A description is admissible (`Descriptor.IsAdmissible`) if a property can be like this. What can
be called is not changed by new plain objects, although the search for it gets longer.

Does not own: how descriptions are read back (`Machine.Description`).
-/

namespace ObjectModel

/-! ### Fields -/

namespace Descriptor

/-- Accessor fields hold `undefined` or something that can be called, and there are none beside
data fields. -/
structure IsAdmissible (callable : ObjectId → Bool) (descriptor : Descriptor) : Prop where
  notMixed : descriptor.isMixed = false
  functions : descriptor.NamesFunctions callable

/-- The field with this name, if there is one and it is present. -/
def field? (descriptor : Descriptor) (key : PropertyKey) : Option Value :=
  (descriptor.fields.find? fun field => PropertyKey.ofString field.1 = key).map Prod.snd

/-- Among fields with different names, a search finds what is present under a name. -/
private theorem find?_present (entries : List (String × Option Value))
    (nodup : (entries.map fun entry => PropertyKey.ofString entry.1).Nodup) {name : String}
    {field : Option Value} (member : (name, field) ∈ entries) :
    ((entries.filterMap fun (name, field) => field.map (name, ·)).find?
      fun field => PropertyKey.ofString field.1 = .ofString name).map Prod.snd = field := by
  induction entries with
  | nil => contradiction
  | cons head rest inductionHypothesis =>
      obtain ⟨first, value⟩ := head
      rw [List.map_cons, List.nodup_cons] at nodup
      rcases List.mem_cons.mp member with isHead | inRest
      · cases isHead
        cases field with
        | some value => simp
        | none =>
            -- the name does not come again
            simp only [List.filterMap_cons, Option.map_none, Option.map_eq_none_iff,
              List.find?_eq_none, decide_eq_true_eq]
            intro other present same
            obtain ⟨⟨name', field⟩, inRest, isOther⟩ := List.mem_filterMap.mp present
            obtain ⟨_, -, rfl⟩ := Option.map_eq_some_iff.mp isOther
            exact nodup.1 (List.mem_map.mpr ⟨_, inRest, same⟩)
      · have different : PropertyKey.ofString first ≠ .ofString name := fun same =>
          nodup.1 (List.mem_map.mpr ⟨_, inRest, same.symm⟩)
        cases value with
        | none => exact inductionHypothesis nodup.2 inRest
        | some value =>
            simpa [List.find?_cons, different] using inductionHypothesis nodup.2 inRest

private theorem field?_of_mem (descriptor : Descriptor) {name : String} {field : Option Value}
    (member : (name, field) ∈ descriptor.entries) :
    descriptor.field? (.ofString name) = field :=
  find?_present descriptor.entries descriptor.nodup_entries member

/-- The description with these fields, whatever they hold. -/
def ofFields (field? : String → Option Value) : Descriptor where
  value := field? "value"
  writable := (field? "writable").map Value.toBoolean
  get := field? "get"
  set := field? "set"
  enumerable := (field? "enumerable").map Value.toBoolean
  configurable := (field? "configurable").map Value.toBoolean

/-- A description is made up of its own fields. -/
theorem ofFields_field? (descriptor : Descriptor) :
    (ofFields fun name => descriptor.field? (.ofString name)) = descriptor := by
  have booleans : ∀ field : Option Bool,
      (field.map Value.boolean).map Value.toBoolean = field := by
    intro field
    cases field <;> rfl
  have value : descriptor.field? (.ofString "value") = descriptor.value :=
    descriptor.field?_of_mem (by simp [entries])
  have writable : descriptor.field? (.ofString "writable") =
      descriptor.writable.map .boolean := descriptor.field?_of_mem (by simp [entries])
  have getter : descriptor.field? (.ofString "get") = descriptor.get :=
    descriptor.field?_of_mem (by simp [entries])
  have setter : descriptor.field? (.ofString "set") = descriptor.set :=
    descriptor.field?_of_mem (by simp [entries])
  have enumerable : descriptor.field? (.ofString "enumerable") =
      descriptor.enumerable.map .boolean := descriptor.field?_of_mem (by simp [entries])
  have configurable : descriptor.field? (.ofString "configurable") =
      descriptor.configurable.map .boolean := descriptor.field?_of_mem (by simp [entries])
  rw [ofFields, value, writable, getter, setter, enumerable, configurable, booleans, booleans,
    booleans]

end Descriptor

namespace Heap

/-! ### What can be called -/

/-- A longer search finds no less. -/
theorem isCallableWithin_mono {heap : Heap} {steps steps' : Nat} (le : steps ≤ steps')
    {id : ObjectId} (callable : heap.isCallableWithin steps id = true) :
    heap.isCallableWithin steps' id = true := by
  induction steps generalizing steps' id with
  | zero => contradiction
  | succ steps inductionHypothesis =>
      obtain ⟨steps', rfl⟩ := Nat.exists_eq_add_of_le' (Nat.le_trans (Nat.le_add_left 1 _) le)
      rw [isCallableWithin] at callable ⊢
      cases kind : heap.kind id with
      | ordinary =>
          rw [kind] at callable
          contradiction
      | function name body => rfl
      | proxy link =>
          rw [kind] at callable
          exact inductionHypothesis (Nat.le_of_succ_le_succ le) callable

theorem lt_of_isCallableWithin {heap : Heap} {steps : Nat} {id : ObjectId}
    (callable : heap.isCallableWithin steps id = true) : id < heap.objects.size := by
  by_contra outside
  cases steps with
  | zero => contradiction
  | succ steps =>
      rw [isCallableWithin, kind, object_outside (Nat.le_of_not_lt outside)] at callable
      contradiction

/-- A step that finds nothing new is followed by such steps only. -/
private theorem isCallableWithin_stable {heap : Heap} {steps : Nat}
    (stable : ∀ id, heap.isCallableWithin steps id = heap.isCallableWithin (steps + 1) id)
    (id : ObjectId) :
    heap.isCallableWithin (steps + 1) id = heap.isCallableWithin (steps + 2) id := by
  rw [isCallableWithin, isCallableWithin]
  cases heap.kind id with
  | ordinary => rfl
  | function name body => rfl
  | proxy link => exact stable link.target

/-- The objects that a search of this length finds to be callable. -/
private def callables (heap : Heap) (steps : Nat) : Finset ObjectId :=
  (Finset.range heap.objects.size).filter fun id => heap.isCallableWithin steps id = true

private theorem mem_callables {heap : Heap} {steps : Nat} {id : ObjectId} :
    id ∈ heap.callables steps ↔ heap.isCallableWithin steps id = true := by
  rw [callables, Finset.mem_filter, Finset.mem_range, and_iff_right_iff_imp]
  exact lt_of_isCallableWithin

private theorem callables_mono (heap : Heap) : Monotone heap.callables := fun _ _ le _ found =>
  mem_callables.mpr (isCallableWithin_mono le (mem_callables.mp found))

private theorem isCallableWithin_eq_of_card {heap : Heap} {steps steps' : Nat}
    (le : steps ≤ steps') (card_eq : (heap.callables steps).card = (heap.callables steps').card)
    (id : ObjectId) : heap.isCallableWithin steps id = heap.isCallableWithin steps' id := by
  have same := Finset.eq_of_subset_of_card_le (callables_mono heap le) card_eq.ge
  rw [Bool.eq_iff_iff, ← mem_callables, ← mem_callables, same]

/-- A search that is longer than the heap finds no more, even where proxies are targets of each
other in a ring. -/
theorem isCallableWithin_eq {heap : Heap} {steps : Nat} (enough : heap.objects.size ≤ steps)
    (id : ObjectId) : heap.isCallableWithin steps id = heap.isCallable id := by
  have bounded : ∀ steps, (heap.callables steps).card ≤ heap.objects.size := fun steps =>
    (Finset.card_filter_le _ _).trans_eq (Finset.card_range _)
  have stays : ∀ steps, (heap.callables steps).card = (heap.callables (steps + 1)).card →
      (heap.callables (steps + 1)).card = (heap.callables (steps + 2)).card := by
    intro steps card_eq
    have stable := isCallableWithin_stable
      (isCallableWithin_eq_of_card (Nat.le_succ steps) card_eq)
    have same : heap.callables (steps + 1) = heap.callables (steps + 2) := by
      ext id
      rw [mem_callables, mem_callables, stable]
    rw [same]
  have card_eq := Nat.stabilises_of_monotone
    (fun _ _ le => Finset.card_le_card (callables_mono heap le)) bounded stays enough
  exact (isCallableWithin_eq_of_card enough card_eq.symm id).symm

/-- New plain objects make nothing callable that was not. -/
theorem isCallable_of_kind_eq {before after : Heap}
    (size_le : before.objects.size ≤ after.objects.size)
    (kind_eq : ∀ id, after.kind id = before.kind id) (id : ObjectId) :
    after.isCallable id = before.isCallable id := by
  rw [isCallable, isCallableWithin_congr kind_eq, isCallableWithin_eq size_le]

theorem SameContent.isCallable_eq {after before : Heap} (same : after.SameContent before) :
    after.isCallable = before.isCallable :=
  funext (isCallable_congr (congrArg Array.size same.objects_eq) same.kind_eq)

/-! ### The object of a description -/

/-- One new plain object without prototype, with the fields of a description as its properties.
Nothing else changes. -/
structure AddsRecord (before : Heap) (store : StoreId) (descriptor : Descriptor)
    (after : Heap) : Prop where
  size_eq : after.objects.size = before.objects.size + 1
  store_eq : (after.object before.objects.size).store = store
  ordinary : after.kind before.objects.size = .ordinary
  prototype_eq : after.prototype before.objects.size = none
  isExtensible : after.isExtensible before.objects.size = true
  keys_eq : after.keys before.objects.size =
    descriptor.fields.map fun field => .ofString field.1
  getOwn_eq : ∀ key, after.getOwn before.objects.size key =
    (descriptor.field? key).map fun value => .data value .assigned
  object_other : ∀ other, other ≠ before.objects.size →
    after.object other = before.object other
  view_other : ∀ other, other ≠ before.objects.size → after.view other = before.view other

/-- Where there was no object, there was no function either. -/
theorem AddsRecord.kind_eq {before after : Heap} {store : StoreId} {descriptor : Descriptor}
    (adds : before.AddsRecord store descriptor after) (id : ObjectId) :
    after.kind id = before.kind id := by
  by_cases isNew : id = before.objects.size
  · subst isNew
    rw [adds.ordinary, kind, object_outside (Nat.le_refl _)]
    rfl
  · rw [kind, adds.object_other id isNew, kind]

theorem AddsRecord.isCallable_eq {before after : Heap} {store : StoreId}
    {descriptor : Descriptor} (adds : before.AddsRecord store descriptor after) :
    after.isCallable = before.isCallable :=
  funext (isCallable_of_kind_eq (by rw [adds.size_eq]; exact Nat.le_succ _) adds.kind_eq)

/-- Uses may be counted. -/
theorem AddsRecord.congr {before after after' : Heap} {store : StoreId} {descriptor : Descriptor}
    (adds : before.AddsRecord store descriptor after) (same : after'.SameContent after) :
    before.AddsRecord store descriptor after' where
  size_eq := by rw [same.objects_eq, adds.size_eq]
  store_eq := by rw [same.object_eq, adds.store_eq]
  ordinary := by rw [same.kind_eq, adds.ordinary]
  prototype_eq := by rw [same.prototype_eq, adds.prototype_eq]
  isExtensible := by rw [same.isExtensible_eq, adds.isExtensible]
  keys_eq := by rw [same.keys_eq, adds.keys_eq]
  getOwn_eq := fun key => by rw [same.getOwn_eq, adds.getOwn_eq]
  object_other := fun other isOther => by rw [same.object_eq, adds.object_other other isOther]
  view_other := fun other isOther => by rw [same.view_eq, adds.view_other other isOther]

theorem lookup_of_getOwn_data {heap : Heap} {id : ObjectId} {key : PropertyKey} {value : Value}
    {attributes : Attributes} (found : heap.getOwn id key = some (.data value attributes)) :
    heap.lookup id key = some (attributes, .data value) := by
  obtain ⟨⟨attributes', slot⟩, stored, same⟩ := Option.map_eq_some_iff.mp found
  cases slot with
  | accessor getter setter => cases same
  | data value' =>
      obtain ⟨writable, enumerable, configurable⟩ := attributes
      obtain ⟨writable', enumerable', configurable'⟩ := attributes'
      cases same
      exact stored

/-- A search from the new object ends there. -/
theorem AddsRecord.findProperty_eq {before after : Heap} {store : StoreId}
    {descriptor : Descriptor} (adds : before.AddsRecord store descriptor after)
    (chained : after.Chained) (key : PropertyKey) :
    after.findProperty before.objects.size key =
      match descriptor.field? key with
      | some value => .found before.objects.size .assigned (.data value)
      | none => .missing := by
  have notExotic : after.isExotic before.objects.size = false := by
    rw [isExotic, proxy?, adds.ordinary]
    rfl
  have own := adds.getOwn_eq key
  rw [chained.findProperty_eq notExotic, adds.prototype_eq]
  cases field : descriptor.field? key with
  | some value =>
      rw [field] at own
      rw [lookup_of_getOwn_data own]
  | none =>
      rw [field] at own
      rw [Option.map_eq_none_iff.mp own]

variable {heap : Heap} (wellFormed : heap.WellFormed) (store : StoreId)
  (descriptor : Descriptor)

include wellFormed

theorem WellFormed.describe_addsRecord :
    (heap.describe store descriptor).2 = heap.objects.size ∧
      heap.AddsRecord store descriptor (heap.describe store descriptor).1 := by
  have updates := wellFormed.updates_describe store descriptor
  have made : ∀ id, (heap.allocate store .ordinary none false).1.object id =
      if id = heap.objects.size then heap.freshObject store .ordinary none false
      else heap.object id := object_allocate heap store .ordinary none false
  have size_eq := size_allocate heap store .ordinary none false
  have inRange : heap.objects.size < (heap.allocate store .ordinary none false).1.objects.size :=
    size_eq ▸ Nat.lt_succ_self _
  have view_eq := updates.view_eq inRange
  refine ⟨rfl, ?_⟩
  constructor
  · rw [updates.size_eq, size_eq]
  · rw [updates.object_eq, made, if_pos rfl]
    rfl
  · rw [updates.kind_eq, kind, made, if_pos rfl]
    rfl
  · rw [updates.prototype_eq, Heap.prototype, made, if_pos rfl]
    rfl
  · rw [isExtensible_eq, view_eq, extensible_addFields]
    rfl
  · rw [updates.wellFormed.keys_eq, view_eq, keys_addFields]
    rfl
  · intro key
    rw [updates.wellFormed.getOwn_eq, view_eq, PropertyMap.descriptor?, find?_addFields,
      Descriptor.field?, Option.map_map]
    exact (congrArg _ Option.none_or).trans (Option.map_map _ _ _)
  · intro other isOther
    rw [updates.object_other other (.inl isOther), made, if_neg isOther]
  · intro other isOther
    rw [updates.view_other (wellFormed.allocate store .ordinary none false) isOther,
      wellFormed.view_allocate, if_neg isOther]

/-- Creating a property under a new key adds it. -/
theorem WellFormed.defineOwn_createData {id : ObjectId} {key : PropertyKey}
    (isExtensible : heap.isExtensible id = true) (absent : key ∉ (heap.view id).keys)
    (value : Value) :
    heap.defineOwn id key (.data value .assigned) =
      (heap.addProperty id key .assigned (.data value), .ok .accepted) := by
  have lacks := (wellFormed.getOwn_eq_none_iff id key).mpr absent
  rw [defineOwn, isExtensible, lacks]
  rfl

end Heap

end ObjectModel
