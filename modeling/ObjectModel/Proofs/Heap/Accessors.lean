import ObjectModel.Proofs.Heap.Callable

/-!
Contract: the functions that accessors hold.

A getter or setter that is stored was found to be callable when it was stored, or it was stored in
the same property before. As what can be called stays so, every accessor holds functions that can
be called, whatever commands are taken (`Heap.AccessorsCallable`).

Does not own: how getters and setters are called.
-/

namespace ObjectModel

/-- The getter and the setter in a slot, as far as it has them. -/
def Slot.functions : Slot → List ObjectId
  | .data _ => []
  | .accessor getter setter => getter.toList ++ setter.toList

/-! ### One definition -/

namespace Descriptor

variable {callable : ObjectId → Bool} {change : Descriptor}

/-- Fields name functions that can be called; absent ones leave the old function. -/
theorem callable_of_accessorField {role : AccessorRole} {field : Option Value}
    {old : Option ObjectId} {function : ObjectId}
    (taken : accessorField callable role field old = .ok (some function)) :
    callable function = true ∨ old = some function := by
  cases field with
  | none =>
      cases taken
      exact .inr rfl
  | some value =>
      cases value with
      | object id =>
          simp only [accessorField, accessorFunction] at taken
          split at taken
          · rename_i isCallable
            cases taken
            exact .inl isCallable
          · contradiction
      | _ => cases taken

theorem functions_accessorSlot {current : Option Descriptor} {slot : Slot}
    (taken : change.accessorSlot callable current = .ok slot) {function : ObjectId}
    (member : function ∈ slot.functions) :
    callable function = true ∨ current.bind getter? = some function ∨
      current.bind setter? = some function := by
  rw [accessorSlot_eq] at taken
  obtain ⟨getter, getterTaken, rest⟩ := bind_eq_ok taken
  obtain ⟨setter, setterTaken, made⟩ := bind_eq_ok rest
  cases made
  rcases List.mem_append.mp member with isGetter | isSetter
  · rw [Option.mem_toList.mp isGetter] at getterTaken
    exact (callable_of_accessorField getterTaken).imp_right .inl
  · rw [Option.mem_toList.mp isSetter] at setterTaken
    exact (callable_of_accessorField setterTaken).imp_right .inr

theorem functions_create {attributes : Attributes} {slot : Slot}
    (created : change.create callable = .ok (attributes, slot)) :
    ∀ function ∈ slot.functions, callable function = true := by
  intro function member
  unfold create at created
  split at created
  · obtain ⟨slot', taken, made⟩ := bind_eq_ok created
    cases made
    simpa using functions_accessorSlot taken member
  · cases created
    contradiction

/-- The description of a property names the functions that it holds. -/
theorem mem_functions_of_ofStored {attributes : Attributes} {slot : Slot} {function : ObjectId}
    (named : (ofStored attributes slot).getter? = some function ∨
      (ofStored attributes slot).setter? = some function) : function ∈ slot.functions := by
  cases slot with
  | data value =>
      rcases named with named | named <;> cases named
  | accessor getter setter =>
      have getter_eq : (ofStored attributes (.accessor getter setter)).getter? = getter :=
        Value.object?_ofObjectOrUndefined getter
      have setter_eq : (ofStored attributes (.accessor getter setter)).setter? = setter :=
        Value.object?_ofObjectOrUndefined setter
      rw [getter_eq, setter_eq] at named
      rw [Slot.functions, List.mem_append, Option.mem_toList, Option.mem_toList]
      exact named

theorem functions_merge {attributes attributes' : Attributes} {slot slot' : Slot}
    (merged : (ofStored attributes slot).merge callable change = .ok (attributes', slot')) :
    ∀ function ∈ slot'.functions, callable function = true ∨ function ∈ slot.functions := by
  intro function member
  unfold merge at merged
  split at merged
  · -- a data property becomes an accessor
    obtain ⟨made, taken, rest⟩ := bind_eq_ok merged
    cases rest
    exact .inl (by simpa using functions_accessorSlot taken member)
  split at merged
  · cases merged
    contradiction
  split at merged
  · -- absent fields keep the functions that are there, without another check
    obtain ⟨made, taken, rest⟩ := bind_eq_ok merged
    cases rest
    exact (functions_accessorSlot taken member).imp_right mem_functions_of_ofStored
  · cases merged
    contradiction

end Descriptor

/-! ### Properties -/

namespace PropertyMap

/-- All getters and setters of the properties. -/
def functions (map : PropertyMap) : List ObjectId :=
  map.entries.flatMap (·.slot.functions)

theorem mem_functions_of_find? {map : PropertyMap} {key : PropertyKey} {attributes : Attributes}
    {slot : Slot} (found : map.find? key = some (attributes, slot)) {function : ObjectId}
    (member : function ∈ slot.functions) : function ∈ map.functions := by
  obtain ⟨entry, search, same⟩ := Option.map_eq_some_iff.mp found
  cases same
  exact List.mem_flatMap.mpr ⟨entry, List.mem_of_find?_eq_some search, member⟩

/-- Other entries keep their functions when one is edited. -/
theorem mem_functions_change {map : PropertyMap} {key : PropertyKey}
    {edit : MapEntry → MapEntry} {function : ObjectId}
    (member : function ∈ (map.change key edit).functions) :
    function ∈ map.functions ∨
      ∃ entry ∈ map.entries, function ∈ (edit entry).slot.functions := by
  obtain ⟨_, isChanged, holds⟩ := List.mem_flatMap.mp member
  obtain ⟨entry, entryMember, rfl⟩ := List.mem_map.mp isChanged
  split at holds
  · exact .inr ⟨entry, entryMember, holds⟩
  · exact .inl (List.mem_flatMap.mpr ⟨entry, entryMember, holds⟩)

theorem mem_functions_replace {map : PropertyMap} {key : PropertyKey} {attributes : Attributes}
    {slot : Slot} {function : ObjectId}
    (member : function ∈ (map.replace key attributes slot).functions) :
    function ∈ map.functions ∨ function ∈ slot.functions :=
  (mem_functions_change member).imp_right fun ⟨_, _, holds⟩ => holds

theorem functions_write_subset (map : PropertyMap) (key : PropertyKey) (value : Value) :
    (map.write key value).functions ⊆ map.functions := by
  intro function member
  rcases mem_functions_change member with old | ⟨entry, entryMember, holds⟩
  · exact old
  · split at holds
    · contradiction
    · exact List.mem_flatMap.mpr ⟨entry, entryMember, holds⟩

theorem functions_add (map : PropertyMap) (key : PropertyKey) (attributes : Attributes)
    (slot : Slot) : (map.add key attributes slot).functions = map.functions ++ slot.functions := by
  simp [functions, add]

theorem functions_remove_subset (map : PropertyMap) (key : PropertyKey) :
    (map.remove key).functions ⊆ map.functions := by
  intro function member
  obtain ⟨entry, kept, holds⟩ := List.mem_flatMap.mp member
  exact List.mem_flatMap.mpr ⟨entry, (List.mem_filter.mp kept).1, holds⟩

theorem functions_close (map : PropertyMap) : map.close.functions = map.functions :=
  rfl

theorem functions_protect (map : PropertyMap) (level : Integrity) :
    (map.protect level).functions = map.functions := by
  simp [functions, protect, List.flatMap_map]

/-- The fields of a description are data. -/
theorem functions_addFields (map : PropertyMap) (fields : List (String × Value)) :
    (Heap.addFields map fields).functions = map.functions := by
  induction fields generalizing map with
  | nil => rfl
  | cons head rest inductionHypothesis =>
      have later := inductionHypothesis (map.add (.ofString head.1) .assigned (.data head.2))
      rw [functions_add, Slot.functions, List.append_nil] at later
      exact later

end PropertyMap

/-! ### Commands -/

namespace Heap

/-- The getters and setters of an object. -/
def functions (heap : Heap) (id : ObjectId) : List ObjectId :=
  (heap.view id).functions

section Step

variable {heap : Heap} (wellFormed : heap.WellFormed)

include wellFormed

/-- A change of one object stores no function anywhere else. -/
private theorem Updates.functions_checked {after : Heap} {target : ObjectId} {map : PropertyMap}
    (updates : heap.Updates target map after)
    (checked : ∀ function ∈ map.functions,
      heap.isCallable function = true ∨ function ∈ heap.functions target) (id : ObjectId) :
    ∀ function ∈ after.functions id,
      heap.isCallable function = true ∨ function ∈ heap.functions id := by
  intro function member
  rcases heap.changed_or_apart target id with ⟨rfl, inRange⟩ | apart
  · rw [functions, updates.view_eq inRange] at member
    exact checked function member
  · rw [functions, updates.view_apart wellFormed apart] at member
    exact .inr member

/-- A command stores a function only if it is found to be callable, or where it was before. -/
theorem Command.functions_checked (command : Command) (id : ObjectId) :
    ∀ function ∈ (command.run heap).1.functions id,
      heap.isCallable function = true ∨ function ∈ heap.functions id := by
  have stay : ∀ {after : Heap}, after.view id = heap.view id → ∀ function ∈ after.functions id,
      heap.isCallable function = true ∨ function ∈ heap.functions id := by
    intro after same function member
    rw [functions, same] at member
    exact .inr member
  cases command with
  | addStore config => exact stay (wellFormed.view_addStore config id)
  | allocate store kind prototype isLiteral =>
      by_cases isNew : id = heap.objects.size
      · intro function member
        rw [run, functions, wellFormed.view_allocate, if_pos isNew] at member
        contradiction
      · exact stay (by rw [run, wellFormed.view_allocate, if_neg isNew])
  | describe store descriptor =>
      have updates := wellFormed.updates_describe store descriptor
      have made := wellFormed.allocate store .ordinary none false
      by_cases isNew : id = heap.objects.size
      · intro function member
        have inRange : heap.objects.size <
            (heap.allocate store .ordinary none false).1.objects.size := by
          rw [size_allocate]
          exact Nat.lt_succ_self _
        rw [run, isNew, functions, updates.view_eq inRange,
          PropertyMap.functions_addFields] at member
        contradiction
      · apply stay
        rw [run, updates.view_other made isNew, wellFormed.view_allocate, if_neg isNew]
  | revoke proxy => exact stay (wellFormed.view_revoke proxy id)
  | setPrototypeOf target prototype =>
      exact stay (wellFormed.view_setPrototypeOf target prototype id)
  | preventExtensions target =>
      exact (wellFormed.updates_preventExtensions target).functions_checked wellFormed
        (fun _ => .inr) id
  | defineOwn target key change =>
      obtain same | ⟨attributes, slot, -, absent, created, added⟩ |
          ⟨attributes, slot, attributes', slot', found, -, merged, updates⟩ :=
        wellFormed.defineOwn_cases target key change
      · exact stay (by rw [run, same])
      · rw [run, added]
        refine (wellFormed.updates_addProperty target absent attributes slot).functions_checked
          wellFormed ?_ id
        intro function member
        rw [PropertyMap.functions_add, List.mem_append] at member
        exact member.symm.imp_left (Descriptor.functions_create created function)
      · refine updates.functions_checked wellFormed ?_ id
        intro function member
        rcases PropertyMap.mem_functions_replace member with old | new
        · exact .inr old
        · exact (Descriptor.functions_merge merged function new).imp_right
            (PropertyMap.mem_functions_of_find? found)
  | writeData target key value =>
      exact (wellFormed.updates_writeData target key value).functions_checked wellFormed
        (fun _ member => .inr (PropertyMap.functions_write_subset _ key value member)) id
  | deleteOwn target key =>
      simp only [run, Heap.deleteOwn]
      split
      · exact stay rfl
      split
      · exact (wellFormed.updates_removeProperty target key).functions_checked wellFormed
          (fun _ member => .inr (PropertyMap.functions_remove_subset _ key member)) id
      · exact stay rfl
  | setIntegrity target level =>
      refine (wellFormed.updates_setIntegrity target level).functions_checked wellFormed ?_ id
      intro function member
      split at member
      · exact .inr member
      · rw [PropertyMap.functions_close, PropertyMap.functions_protect] at member
        exact .inr member
  | transition store shape step =>
      apply stay
      rw [run, (sameContent_holdShape _ _).view_eq, wellFormed.view_transition]
  | holdAll ids => exact stay ((sameContent_holdAll heap ids).view_eq id)
  | releaseAll ids => exact stay ((sameContent_releaseAll heap ids).view_eq id)
  | holdShape shape => exact stay ((sameContent_holdShape heap shape).view_eq id)
  | releaseShape shape => exact stay ((sameContent_releaseShape heap shape).view_eq id)

end Step

/-! ### Histories -/

/-- Every getter and every setter of every object can be called. -/
def AccessorsCallable (heap : Heap) : Prop :=
  ∀ id key attributes slot, heap.lookup id key = some (attributes, slot) →
    ∀ function ∈ slot.functions, heap.isCallable function = true

theorem WellFormed.accessorsCallable {heap : Heap} (wellFormed : heap.WellFormed)
    (callable : ∀ id, ∀ function ∈ heap.functions id, heap.isCallable function = true) :
    heap.AccessorsCallable := by
  intro id key attributes slot found function member
  rw [wellFormed.lookup_eq] at found
  exact callable id function (PropertyMap.mem_functions_of_find? found member)

/-- Commands lead to accessors that can be called only. -/
theorem Reachable.accessorsCallable {heap : Heap} (reachable : heap.Reachable) :
    heap.AccessorsCallable := by
  let holds := fun heap : Heap => heap.WellFormed ∧
    ∀ id, ∀ function ∈ heap.functions id, heap.isCallable function = true
  have kept : ∀ heap, holds heap → ∀ command : Command, holds (command.run heap).1 := by
    rintro heap ⟨wellFormed, callable⟩ command
    refine ⟨command.wellFormed wellFormed, fun id function member => ?_⟩
    have was : heap.isCallable function = true :=
      (Command.functions_checked wellFormed command id function member).elim (fun found => found)
        (callable id function)
    exact ((Becomes.refl heap).command command).isCallable wellFormed was
  obtain ⟨config, commands, rfl⟩ := reachable
  have starts : holds (.start config) :=
    ⟨wellFormed_start config, fun id _ member => by cases member⟩
  obtain ⟨wellFormed, callable⟩ := Command.runAll_keeps kept starts commands
  exact wellFormed.accessorsCallable callable

end Heap

end ObjectModel
