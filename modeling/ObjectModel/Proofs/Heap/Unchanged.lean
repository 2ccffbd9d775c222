import ObjectModel.Heap.Ordinary
import ObjectModel.Proofs.Heap.Store

/-!
Contract: what is stored already may be stored again.

A storage put where it is, a step that a layout takes no notice of, and a property that is
replaced by itself leave the content of a heap as it is, the memory of its shapes included:
only uses are counted anew.
-/

namespace ObjectModel.Heap

/-! ### Storages and steps -/

private theorem setIfInBounds_getD {α : Type} [Inhabited α] (array : Array α) (position : Nat) :
    array.setIfInBounds position (array.getD position default) = array := by
  apply Array.ext
  · exact Array.size_setIfInBounds
  · intro other inRange inRange'
    rw [Array.getElem_setIfInBounds]
    split
    · rename_i same
      subst same
      simp [inRange']
    · rfl

theorem sameContent_setStorage {heap : Heap} {id : ObjectId} {storage : Storage}
    (same : (heap.object id).storage = storage) :
    (heap.setStorage id storage).SameContent heap := by
  subst same
  exact (sameContent_setObject heap id _).trans
    ⟨setIfInBounds_getD heap.objects id, rfl, rfl⟩

/-- A step that changes nothing is not taken. -/
theorem transition_unchanged {heap : Heap} {shape : ShapeId} {step : Transition}
    (unchanged : (heap.layout shape).isUnchangedBy step = true) (maker : StoreId) :
    heap.transition maker shape step = (heap, shape) := by
  have next : heap.shapes.next? shape step = some shape := by
    unfold ShapeGraph.next?
    exact if_pos unchanged
  have stays : (heap.store maker).transition heap.shapes shape step =
      (heap.store maker, heap.shapes, shape) := by
    rw [ShapeStore.transition, next]
  calc
    heap.transition maker shape step
      = (let taken := (heap.store maker).transition heap.shapes shape step
        ({ heap with
            shapes := taken.2.1
            stores := heap.stores.setIfInBounds maker taken.1 }, taken.2.2)) := rfl
    _ = ({ heap with stores := heap.stores.setIfInBounds maker (heap.store maker) }, shape) := by
        rw [stays]
    _ = (heap, shape) := by
        rw [store, setIfInBounds_getD]

/-- An object whose layout takes no notice of a step keeps its content. -/
theorem sameContent_transition {heap : Heap} {id : ObjectId} {shape : ShapeId}
    {slots : List Slot} (storage : (heap.object id).storage = .shaped shape slots)
    {step : Transition} (unchanged : (heap.layout shape).isUnchangedBy step = true)
    (maker : StoreId) :
    ((heap.transition maker shape step).1.setStorage id
      (.shaped (heap.transition maker shape step).2 slots)).SameContent heap := by
  rw [transition_unchanged unchanged]
  exact sameContent_setStorage storage

/-! ### Properties -/

/-- What the view of a layout finds has its place there, which holds it already. -/
private theorem found_in_layout {layout : Layout} {slots : List Slot}
    (wellFormed : layout.WellFormed) (fits : layout.Fits slots) {key : PropertyKey}
    {attributes : Attributes} {slot : Slot}
    (found : (layout.view slots).find? key = some (attributes, slot)) :
    ∃ property, layout.find? key = some property ∧ property.attributes = attributes ∧
      property.kind = slot.kind ∧ slots.set property.slot slot = slots := by
  rw [Layout.find?_view] at found
  obtain ⟨property, search, pair⟩ := Option.map_eq_some_iff.mp found
  cases pair
  have member := (Layout.mem_of_find? search).1
  have inRange : property.slot < slots.length := by
    rw [fits.length_eq]
    exact wellFormed.slot_lt member
  refine ⟨property, search, rfl, (fits.kind_eq property member).symm, ?_⟩
  rw [List.getD_eq_getElem?_getD, List.getElem?_eq_getElem inRange, Option.getD_some,
    List.set_getElem_self]

/-- What the view of a table finds is an entry, which holds it already. -/
private theorem found_in_table {table : Dictionary} (wellFormed : table.WellFormed)
    {key : PropertyKey} {attributes : Attributes} {slot : Slot}
    (found : table.view.find? key = some (attributes, slot)) :
    table.get? key = some ⟨attributes, slot⟩ ∧
      table.update key ⟨attributes, slot⟩ = table := by
  rw [wellFormed.find?_view] at found
  obtain ⟨entry, get, pair⟩ := Option.map_eq_some_iff.mp found
  cases pair
  obtain ⟨placed, search, placed_entry⟩ := Option.map_eq_some_iff.mp get
  obtain ⟨member, sameKey⟩ := Dictionary.mem_of_find? search
  refine ⟨get, ?_⟩
  have kept : table.entries.map (fun other =>
      if other.key = key then { other with entry := entry } else other) = table.entries := by
    refine (List.map_congr_left ?_).trans (List.map_id _)
    intro other otherMember
    split
    · rename_i otherKey
      rw [wellFormed.eq_of_key_eq otherMember member (otherKey.trans sameKey.symm),
        ← placed_entry]
      rfl
    · rfl
  exact congrArg (fun entries => { table with entries := entries }) kept

section Unchanged

variable {heap : Heap} (wellFormed : heap.WellFormed) {id : ObjectId} {key : PropertyKey}

include wellFormed

/-- A value written where it is. -/
theorem WellFormed.sameContent_writeData {attributes : Attributes} {value : Value}
    (found : (heap.view id).find? key = some (attributes, .data value)) :
    (heap.writeData id key value).SameContent heap := by
  have stored := wellFormed.storage id
  simp only [view] at found
  simp only [writeData]
  cases storage : (heap.object id).storage with
  | shaped shape slots =>
      rw [storage] at stored found
      obtain ⟨property, search, -, isData, set_eq⟩ :=
        found_in_layout stored.2.1 stored.2.2 found
      have find_eq : (heap.layout shape).find? key = some property := search
      have kind_eq : property.kind = .data := isData
      simp only [find_eq]
      rw [if_pos kind_eq, set_eq]
      exact sameContent_setStorage storage
  | dictionary table =>
      rw [storage] at stored found
      obtain ⟨get_eq, update_eq⟩ := found_in_table stored found
      have kind_eq : (Slot.data value).kind = .data := rfl
      simp only [get_eq]
      rw [if_pos kind_eq, update_eq]
      exact sameContent_setStorage storage

/-- A property replaced by itself. -/
theorem WellFormed.sameContent_replaceProperty {attributes : Attributes} {slot : Slot}
    (found : (heap.view id).find? key = some (attributes.stored slot.kind, slot)) :
    (heap.replaceProperty id key attributes slot).SameContent heap := by
  have stored := wellFormed.storage id
  simp only [view] at found
  simp only [replaceProperty]
  cases storage : (heap.object id).storage with
  | shaped shape slots =>
      rw [storage] at stored found
      obtain ⟨property, search, attributes_eq, kind_eq, set_eq⟩ :=
        found_in_layout stored.2.1 stored.2.2 found
      have find_eq : (heap.layout shape).find? key = some property := search
      have unchanged : (heap.layout shape).isUnchangedBy
          (.reconfigure key (attributes.stored slot.kind) slot.kind) = true := by
        simp [Layout.isUnchangedBy, find_eq, attributes_eq, kind_eq]
      simp only [find_eq, set_eq]
      exact sameContent_transition storage unchanged _
  | dictionary table =>
      rw [storage] at stored found
      simp only [(found_in_table stored found).2]
      exact sameContent_setStorage storage

/-- A property stored again, in whichever way. -/
theorem WellFormed.sameContent_storeMerged {attributes : Attributes} {slot : Slot}
    (found : (heap.view id).find? key = some (attributes.stored slot.kind, slot))
    (current : Descriptor) :
    (heap.storeMerged id key current attributes slot).SameContent heap := by
  have replaced := wellFormed.sameContent_replaceProperty found
  cases slot with
  | accessor getter setter => exact replaced
  | data value =>
      simp only [storeMerged]
      split
      · exact wellFormed.sameContent_writeData found
      · exact replaced

end Unchanged

end ObjectModel.Heap
