import ObjectModel.Proofs.Definition
import ObjectModel.Proofs.Heap.Command
import ObjectModel.Proofs.Heap.Unchanged

/-!
Contract: defining a property of an ordinary object.

A definition that the rules allow stores the overlay of the change and nothing else
(`Heap.Defines`). One that is refused, or that names an accessor function that cannot be
called, leaves the heap as it is, and one that is made twice is made once.

Does not own: the rules and the overlay (`Definition`).
-/

namespace ObjectModel.Heap

/-- What a definition makes of a heap: the property of this key is as described, a new key
goes last, and nothing else changes. -/
structure Defines (before : Heap) (id : ObjectId) (key : PropertyKey) (result : Descriptor)
    (after : Heap) : Prop where
  size_eq : after.objects.size = before.objects.size
  getOwn_eq : after.getOwn id key = some result
  getOwn_other : ∀ other, other ≠ key → after.getOwn id other = before.getOwn id other
  keys_eq : after.keys id =
    if (before.getOwn id key).isSome then before.keys id else before.keys id ++ [key]
  isExtensible_eq : after.isExtensible id = before.isExtensible id
  kind_eq : ∀ other, after.kind other = before.kind other
  prototype_eq : ∀ other, after.prototype other = before.prototype other
  object_other : ∀ other, other ≠ id → after.object other = before.object other
  view_other : ∀ other, other ≠ id → after.view other = before.view other

section Defines

variable {before after : Heap} (wellFormed : before.WellFormed) {id : ObjectId}
  (inRange : id < before.objects.size) {key : PropertyKey}

include wellFormed inRange

/-- A map that differs in one property from what an object stored. -/
private theorem Updates.defines {map : PropertyMap} (updates : before.Updates id map after)
    {result : Descriptor} (stored : map.descriptor? key = some result)
    (others : ∀ other, other ≠ key → map.find? other = (before.view id).find? other)
    (keys_eq : map.keys = if key ∈ (before.view id).keys then (before.view id).keys
      else (before.view id).keys ++ [key])
    (extensible_eq : map.extensible = (before.view id).extensible) :
    before.Defines id key result after where
  size_eq := updates.size_eq
  getOwn_eq := by rw [updates.wellFormed.getOwn_eq, updates.view_eq inRange, stored]
  getOwn_other := by
    intro other different
    rw [updates.wellFormed.getOwn_eq, updates.view_eq inRange, wellFormed.getOwn_eq,
      PropertyMap.descriptor?, others other different, PropertyMap.descriptor?]
  keys_eq := by
    rw [updates.wellFormed.keys_eq, updates.view_eq inRange, keys_eq, wellFormed.keys_eq]
    simp only [wellFormed.isSome_getOwn_iff]
  isExtensible_eq := by
    rw [isExtensible_eq, updates.view_eq inRange, extensible_eq, isExtensible_eq]
  kind_eq := updates.kind_eq
  prototype_eq := updates.prototype_eq
  object_other := fun other different => updates.object_other other (.inl different)
  view_other := fun other different => updates.view_other wellFormed different

/-- A property that is replaced. -/
theorem Updates.defines_replace {attributes : Attributes} {slot : Slot}
    (updates : before.Updates id ((before.view id).replace key attributes slot) after)
    (present : key ∈ (before.view id).keys) :
    before.Defines id key (.ofStored (attributes.stored slot.kind) slot) after := by
  obtain ⟨old, found⟩ := Option.isSome_iff_exists.mp (PropertyMap.isSome_find?_iff.mpr present)
  apply updates.defines wellFormed inRange
  · rw [PropertyMap.descriptor?, PropertyMap.find?_replace, if_pos rfl, found]
    rfl
  · intro other different
    rw [PropertyMap.find?_replace, if_neg different]
  · rw [PropertyMap.keys_replace, if_pos present]
  · rw [PropertyMap.extensible_replace]

/-- A property that is added. -/
theorem Updates.defines_add {attributes : Attributes} {slot : Slot}
    (updates : before.Updates id ((before.view id).add key attributes slot) after)
    (absent : key ∉ (before.view id).keys) :
    before.Defines id key (.ofStored (attributes.stored slot.kind) slot) after := by
  have missing := PropertyMap.find?_eq_none_iff.mpr absent
  apply updates.defines wellFormed inRange
  · rw [PropertyMap.descriptor?, PropertyMap.find?_add, missing, if_pos rfl]
    rfl
  · intro other different
    rw [PropertyMap.find?_add, if_neg different, Option.or_none]
  · rw [if_neg absent, PropertyMap.keys_add]
  · rw [PropertyMap.extensible_add]

/-- A property that stays as it is. -/
theorem defines_refl {current : Descriptor} (found : before.getOwn id key = some current) :
    before.Defines id key current before := by
  have present := wellFormed.mem_keys_of_getOwn id found
  rw [wellFormed.getOwn_eq] at found
  exact (Updates.refl wellFormed rfl).defines wellFormed inRange found (fun _ _ => rfl)
    (if_pos present).symm rfl

end Defines

theorem SameContent.getOwn_eq {after before : Heap} (same : after.SameContent before)
    (id : ObjectId) (key : PropertyKey) : after.getOwn id key = before.getOwn id key := by
  rw [getOwn, same.lookup_eq, getOwn]

theorem SameContent.isExtensible_eq {after before : Heap} (same : after.SameContent before)
    (id : ObjectId) : after.isExtensible id = before.isExtensible id := by
  rw [Heap.isExtensible_eq, same.view_eq, Heap.isExtensible_eq]

/-- Uses may be counted on both sides. -/
theorem Defines.congr {before before' after after' : Heap} {id : ObjectId} {key : PropertyKey}
    {result : Descriptor} (defines : before'.Defines id key result after')
    (sameBefore : before'.SameContent before) (sameAfter : after.SameContent after') :
    before.Defines id key result after where
  size_eq := by
    rw [sameAfter.objects_eq, defines.size_eq, sameBefore.objects_eq]
  getOwn_eq := by rw [sameAfter.getOwn_eq, defines.getOwn_eq]
  getOwn_other := fun other different => by
    rw [sameAfter.getOwn_eq, defines.getOwn_other other different, sameBefore.getOwn_eq]
  keys_eq := by
    rw [sameAfter.keys_eq, defines.keys_eq, sameBefore.getOwn_eq, sameBefore.keys_eq]
  isExtensible_eq := by
    rw [sameAfter.isExtensible_eq, defines.isExtensible_eq, sameBefore.isExtensible_eq]
  kind_eq := fun other => by
    rw [sameAfter.kind_eq, defines.kind_eq, sameBefore.kind_eq]
  prototype_eq := fun other => by
    rw [sameAfter.prototype_eq, defines.prototype_eq, sameBefore.prototype_eq]
  object_other := fun other different => by
    rw [sameAfter.object_eq, defines.object_other other different, sameBefore.object_eq]
  view_other := fun other different => by
    rw [sameAfter.view_eq, defines.view_other other different, sameBefore.view_eq]

/-! ### What a definition does -/

section Definition

variable {heap : Heap} (id : ObjectId) (key : PropertyKey) (change : Descriptor)

theorem defineOwn_incompatible
    (incompatible : change.isCompatible key (heap.isExtensible id) (heap.getOwn id key) =
      false) :
    ∃ reason, heap.defineOwn id key change = (heap, .ok (.refused reason)) := by
  cases refused : change.refusal? key (heap.isExtensible id) (heap.getOwn id key) with
  | none =>
      rw [Descriptor.isCompatible, refused] at incompatible
      contradiction
  | some reason => exact ⟨reason, by rw [defineOwn, validateAndApply, refused]⟩

theorem defineOwn_compatible
    (compatible : change.isCompatible key (heap.isExtensible id) (heap.getOwn id key) =
      true) :
    heap.defineOwn id key change =
      match change.stored? heap.isCallable (heap.getOwn id key) with
      | .error fault => (heap, .error fault)
      | .ok none => (heap, .ok .accepted)
      | .ok (some (attributes, slot)) =>
          (heap.storeProperty id key (heap.getOwn id key) attributes slot, .ok .accepted) := by
  rw [Descriptor.isCompatible, Option.isNone_iff_eq_none] at compatible
  cases result : change.stored? heap.isCallable (heap.getOwn id key) with
  | error fault => simp [defineOwn, validateAndApply, compatible, result]
  | ok stored =>
      cases stored <;> simp [defineOwn, validateAndApply, compatible, result]

variable {id key change} (wellFormed : heap.WellFormed)

include wellFormed

theorem WellFormed.exists_ofStored (current : Descriptor)
    (found : heap.getOwn id key = some current) :
    ∃ attributes slot, current = .ofStored attributes slot := by
  obtain ⟨attributes, slot, -, isStored⟩ := wellFormed.find?_of_getOwn id found
  exact ⟨attributes, slot, isStored⟩

theorem WellFormed.isFull_getOwn (current : Descriptor)
    (found : heap.getOwn id key = some current) : current.IsFull := by
  obtain ⟨attributes, slot, rfl⟩ := wellFormed.exists_ofStored current found
  exact Descriptor.isFull_ofStored attributes slot

/-- What is stored, whether the property is new or not. -/
private theorem storeProperty_spec (inRange : id < heap.objects.size) (key : PropertyKey)
    (attributes : Attributes) (slot : Slot) :
    let after := heap.storeProperty id key (heap.getOwn id key) attributes slot
    heap.Defines id key (.ofStored (attributes.stored slot.kind) slot) after ∧
      after.WellFormed ∧
      (after.view id).find? key = some (attributes.stored slot.kind, slot) := by
  cases found : heap.getOwn id key with
  | none =>
      have absent := (wellFormed.getOwn_eq_none_iff id key).mp found
      have updates := wellFormed.updates_addProperty id absent attributes slot
      refine ⟨updates.defines_add wellFormed inRange absent, updates.wellFormed, ?_⟩
      rw [storeProperty, updates.view_eq inRange, PropertyMap.find?_add,
        PropertyMap.find?_eq_none_iff.mpr absent, if_pos rfl]
      rfl
  | some current =>
      have present := wellFormed.mem_keys_of_getOwn id found
      have updates := wellFormed.updates_storeMerged id found attributes slot
      obtain ⟨old, search⟩ :=
        Option.isSome_iff_exists.mp (PropertyMap.isSome_find?_iff.mpr present)
      refine ⟨updates.defines_replace wellFormed inRange present, updates.wellFormed, ?_⟩
      rw [storeProperty, updates.view_eq inRange, PropertyMap.find?_replace, if_pos rfl, search]
      rfl

/-- A change that is there already is accepted, and stored where it is. -/
private theorem defineOwn_again {attributes : Attributes} {slot : Slot}
    (found : (heap.view id).find? key = some (attributes.stored slot.kind, slot))
    (notMixed : change.isMixed = false) (functions : change.NamesFunctions heap.isCallable)
    (carries : (Descriptor.ofStored (attributes.stored slot.kind) slot).Carries change) :
    ∃ again, heap.defineOwn id key change = (again, .ok .accepted) ∧
      again.SameContent heap := by
  have own : heap.getOwn id key =
      some (.ofStored (attributes.stored slot.kind) slot) := by
    rw [wellFormed.getOwn_eq, PropertyMap.descriptor?, found]
    rfl
  have full := Descriptor.isFull_ofStored (attributes.stored slot.kind) slot
  have compatible : change.isCompatible key (heap.isExtensible id) (heap.getOwn id key) =
      true := by
    rw [Descriptor.isCompatible_iff wellFormed.isFull_getOwn notMixed, own]
    exact carries.mayDefine full _
  rw [defineOwn_compatible id key change compatible]
  obtain ⟨stored, result⟩ := Descriptor.stored?_ok functions (heap.getOwn id key)
  rw [result]
  rcases stored with _ | ⟨attributes', slot'⟩
  · exact ⟨heap, rfl, .refl heap⟩
  · have overlaid := Descriptor.ofStored_of_stored? notMixed wellFormed.exists_ofStored result
    rw [own, carries.overlay_eq full] at overlaid
    obtain ⟨rfl, sameAttributes⟩ := Descriptor.stored_inj overlaid
    rw [← sameAttributes] at found
    rw [own]
    exact ⟨_, rfl, wellFormed.sameContent_storeMerged found _⟩

variable (inRange : id < heap.objects.size) (notMixed : change.isMixed = false)

include inRange notMixed

/-- A definition that the rules allow stores the overlay, and once it is stored the same
definition stores nothing new. -/
theorem WellFormed.defineOwn_defines (functions : change.NamesFunctions heap.isCallable)
    (compatible : change.isCompatible key (heap.isExtensible id) (heap.getOwn id key) =
      true) :
    ∃ after, heap.defineOwn id key change = (after, .ok .accepted) ∧
      heap.Defines id key (change.overlay (heap.getOwn id key)) after ∧
      ∃ again, after.defineOwn id key change = (again, .ok .accepted) ∧
        again.SameContent after := by
  have accepted := defineOwn_compatible id key change compatible
  obtain ⟨stored, result⟩ := Descriptor.stored?_ok functions (heap.getOwn id key)
  rw [result] at accepted
  rcases stored with _ | ⟨attributes, slot⟩
  · have kept := (Descriptor.overlay_of_stored?_none wellFormed.isFull_getOwn result).2
    exact ⟨heap, accepted, defines_refl wellFormed inRange kept, heap, accepted, .refl heap⟩
  · obtain ⟨defines, after, found⟩ :=
      storeProperty_spec wellFormed inRange key attributes slot
    have overlaid :=
      Descriptor.ofStored_of_stored? notMixed wellFormed.exists_ofStored result
    have functions' : change.NamesFunctions
        (heap.storeProperty id key (heap.getOwn id key) attributes slot).isCallable := by
      rwa [funext (isCallable_congr defines.size_eq defines.kind_eq)]
    have carries := Descriptor.carries_overlay change (heap.getOwn id key)
    rw [← overlaid] at carries
    exact ⟨_, accepted, overlaid ▸ defines,
      defineOwn_again after found notMixed functions' carries⟩

omit inRange in
/-- A definition that the rules allow fails if it names something that cannot be called. -/
theorem WellFormed.defineOwn_fails (noFunctions : ¬change.NamesFunctions heap.isCallable)
    (compatible : change.isCompatible key (heap.isExtensible id) (heap.getOwn id key) =
      true) :
    ∃ role value, heap.defineOwn id key change =
      (heap, .error (.accessorNotFunction role value)) := by
  have full : ∀ current, heap.getOwn id key = some current → current.IsFull :=
    wellFormed.isFull_getOwn
  obtain ⟨role, value, fails⟩ := Descriptor.stored?_error noFunctions notMixed full
  exact ⟨role, value, by rw [defineOwn_compatible id key change compatible, fails]⟩

end Definition

end ObjectModel.Heap
