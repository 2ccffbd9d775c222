import ObjectModel.Heap.Storage
import ObjectModel.Proofs.Heap.Uses
import ObjectModel.Proofs.Storage.Dictionary

/-!
Contract: every object of a well-formed heap stores a `PropertyMap`.

Owns: `Heap.WellFormed`, the view of an object, and `Heap.Updates`, which says of a raw
operation what map it leaves in its object and that nothing else changes. There is one
`updates` lemma for each raw operation.

Does not own: which operations the algorithms of the language perform.
-/

namespace ObjectModel

/-- What a storage on the shapes of this graph has to satisfy. -/
def Storage.WellFormed (graph : ShapeGraph) : Storage → Prop
  | .shaped shape slots =>
      shape < graph.size ∧ (graph.layout shape).WellFormed ∧ (graph.layout shape).Fits slots
  | .dictionary table => table.WellFormed

/-- The properties that a storage holds. -/
def Storage.view (graph : ShapeGraph) : Storage → PropertyMap
  | .shaped shape slots => (graph.layout shape).view slots
  | .dictionary table => table.view

namespace Storage

variable {after before : ShapeGraph}

theorem WellFormed.mono (grown : after.Extends before) {storage : Storage}
    (wellFormed : storage.WellFormed before) : storage.WellFormed after := by
  cases storage with
  | shaped shape slots =>
      obtain ⟨inRange, layout, fits⟩ := wellFormed
      refine ⟨Nat.lt_of_lt_of_le inRange grown.size_le, ?_, ?_⟩
      · rw [grown.layout_eq shape inRange]
        exact layout
      · rw [grown.layout_eq shape inRange]
        exact fits
  | dictionary table => exact wellFormed

theorem WellFormed.view_mono (grown : after.Extends before) {storage : Storage}
    (wellFormed : storage.WellFormed before) : storage.view after = storage.view before := by
  cases storage with
  | shaped shape slots => rw [view, view, grown.layout_eq shape wellFormed.1]
  | dictionary table => rfl

end Storage

namespace Heap

/-- The properties of an object. -/
def view (heap : Heap) (id : ObjectId) : PropertyMap :=
  (heap.object id).storage.view heap.shapes

/-- Remembered steps lead where they should, every store starts at an empty layout, and
every object stores what its layout or its table says. -/
structure WellFormed (heap : Heap) : Prop where
  faithful : heap.shapes.Faithful
  root_lt : ∀ id, (heap.store id).root < heap.shapes.size
  root_layout : ∀ id, heap.shapes.layout (heap.store id).root = .empty
  storage : ∀ id, (heap.object id).storage.WellFormed heap.shapes

/-- Every shape keeps its layout, and every store its root and its configuration. -/
structure Grows (after before : Heap) : Prop where
  shapes : after.shapes.Extends before.shapes
  stores_size_eq : after.stores.size = before.stores.size
  root_eq : ∀ id, (after.store id).root = (before.store id).root
  config_eq : ∀ id, (after.store id).config = (before.store id).config

/-- What happens to one object: it now stores `map`, and nothing else changes. An object
that does not exist cannot change. -/
structure Updates (before : Heap) (id : ObjectId) (map : PropertyMap) (after : Heap) :
    Prop where
  wellFormed : after.WellFormed
  grows : after.Grows before
  size_eq : after.objects.size = before.objects.size
  object_other : ∀ other, other ≠ id ∨ before.objects.size ≤ other →
    after.object other = before.object other
  object_eq : after.object id = { before.object id with storage := (after.object id).storage }
  view_eq : id < before.objects.size → after.view id = map

theorem Grows.refl (heap : Heap) : heap.Grows heap :=
  ⟨.refl heap.shapes, rfl, fun _ => rfl, fun _ => rfl⟩

theorem Grows.trans {first second third : Heap} (later : third.Grows second)
    (earlier : second.Grows first) : third.Grows first where
  shapes := later.shapes.trans earlier.shapes
  stores_size_eq := later.stores_size_eq.trans earlier.stores_size_eq
  root_eq := fun id => (later.root_eq id).trans (earlier.root_eq id)
  config_eq := fun id => (later.config_eq id).trans (earlier.config_eq id)

theorem SameContent.view_eq {after before : Heap} (same : after.SameContent before)
    (id : ObjectId) : after.view id = before.view id := by
  rw [view, view, same.object_eq]
  cases (before.object id).storage with
  | shaped shape slots =>
      rw [Storage.view, Storage.view, ShapeGraph.layout_congr same.shapes_eq]
  | dictionary table => rfl

theorem SameContent.lookup_eq {after before : Heap} (same : after.SameContent before)
    (id : ObjectId) (key : PropertyKey) : after.lookup id key = before.lookup id key := by
  simp only [lookup, layout, same.object_eq, ShapeGraph.layout_congr same.shapes_eq]

theorem SameContent.keys_eq {after before : Heap} (same : after.SameContent before)
    (id : ObjectId) : after.keys id = before.keys id := by
  simp only [keys, layout, same.object_eq, ShapeGraph.layout_congr same.shapes_eq]

theorem WellFormed.congr {after before : Heap} (wellFormed : before.WellFormed)
    (same : after.SameContent before) : after.WellFormed where
  faithful := wellFormed.faithful.congr same.shapes_eq
  root_lt := fun id => by
    rw [same.store_eq, ShapeGraph.size_congr same.shapes_eq]
    exact wellFormed.root_lt id
  root_layout := fun id => by
    rw [same.store_eq, ShapeGraph.layout_congr same.shapes_eq]
    exact wellFormed.root_layout id
  storage := fun id => by
    rw [same.object_eq]
    exact (wellFormed.storage id).mono (.of_shapes_eq same.shapes_eq)

namespace Updates

variable {before after : Heap} {id : ObjectId} {map : PropertyMap}
  (updates : before.Updates id map after)

include updates

theorem view_apart (wellFormed : before.WellFormed) {other : ObjectId}
    (apart : other ≠ id ∨ before.objects.size ≤ other) : after.view other = before.view other := by
  rw [view, updates.object_other other apart]
  exact (wellFormed.storage other).view_mono updates.grows.shapes

theorem view_other (wellFormed : before.WellFormed) {other : ObjectId}
    (different : other ≠ id) : after.view other = before.view other :=
  updates.view_apart wellFormed (.inl different)

/-- Everything but the storage stays for every object. -/
theorem object_frame (other : ObjectId) :
    after.object other = { before.object other with storage := (after.object other).storage } := by
  by_cases same : other = id
  · rw [same]
    exact updates.object_eq
  · rw [updates.object_other other (.inl same)]

theorem kind_eq (other : ObjectId) : after.kind other = before.kind other := by
  rw [kind, updates.object_frame other, kind]

theorem prototype_eq (other : ObjectId) : after.prototype other = before.prototype other := by
  rw [prototype, updates.object_frame other, prototype]

theorem config_eq (other : ObjectId) : after.config other = before.config other := by
  rw [config, updates.object_frame other, updates.grows.config_eq, config]

/-- Two changes of one object are one. -/
theorem trans {final : Heap} {map' : PropertyMap} (later : after.Updates id map' final) :
    before.Updates id map' final where
  wellFormed := later.wellFormed
  grows := later.grows.trans updates.grows
  size_eq := later.size_eq.trans updates.size_eq
  object_other := fun other apart =>
    (later.object_other other (by rwa [updates.size_eq])).trans (updates.object_other other apart)
  object_eq := later.object_eq.trans (by rw [updates.object_eq])
  view_eq := fun inRange => later.view_eq (by rwa [updates.size_eq])

omit updates in
/-- A heap that stays as it is updates an object to the map that it has. -/
theorem refl {heap : Heap} (wellFormed : heap.WellFormed) {id : ObjectId}
    {map : PropertyMap} (unchanged : heap.view id = map) : heap.Updates id map heap where
  wellFormed := wellFormed
  grows := .refl heap
  size_eq := rfl
  object_other := fun _ _ => rfl
  object_eq := rfl
  view_eq := fun _ => unchanged

end Updates

/-! ### Reading -/

section Reading

variable {heap : Heap} (wellFormed : heap.WellFormed) (id : ObjectId)

include wellFormed

theorem WellFormed.lookup_eq (key : PropertyKey) :
    heap.lookup id key = (heap.view id).find? key := by
  have stored := wellFormed.storage id
  simp only [lookup, view]
  cases storage : (heap.object id).storage with
  | shaped shape slots => exact (Layout.find?_view _ slots key).symm
  | dictionary table =>
      rw [storage] at stored
      exact (Dictionary.WellFormed.find?_view stored key).symm

theorem WellFormed.keys_eq : heap.keys id = (heap.view id).keys := by
  have stored := wellFormed.storage id
  simp only [keys, view]
  cases storage : (heap.object id).storage with
  | shaped shape slots => exact (Layout.keys_view _ slots).symm
  | dictionary table =>
      rw [storage] at stored
      exact (Dictionary.WellFormed.keys_view stored).symm

theorem WellFormed.nodup_keys : (heap.view id).keys.Nodup := by
  have stored := wellFormed.storage id
  unfold view
  cases storage : (heap.object id).storage with
  | shaped shape slots =>
      rw [storage] at stored
      rw [Storage.view, Layout.keys_view]
      exact stored.2.1.keysNodup
  | dictionary table =>
      rw [storage] at stored
      rw [Storage.view, Dictionary.WellFormed.keys_view stored]
      exact Dictionary.WellFormed.nodup_keys stored

theorem WellFormed.propertyCount_eq : heap.propertyCount id = (heap.view id).count := by
  have stored := wellFormed.storage id
  simp only [propertyCount, view]
  cases storage : (heap.object id).storage with
  | shaped shape slots => exact (Layout.count_view _ slots).symm
  | dictionary table =>
      rw [storage] at stored
      exact (Dictionary.WellFormed.count_view stored).symm

omit wellFormed in
theorem isExtensible_eq (heap : Heap) : heap.isExtensible id = (heap.view id).extensible := by
  simp only [isExtensible, view]
  cases (heap.object id).storage <;> rfl

theorem WellFormed.hasData_eq (key : PropertyKey) :
    heap.hasData id key = (heap.view id).hasData key := by
  have stored := wellFormed.storage id
  simp only [hasData, view]
  cases storage : (heap.object id).storage with
  | shaped shape slots =>
      rw [storage] at stored
      exact (Layout.hasData_view stored.2.2 key).symm
  | dictionary table =>
      rw [storage] at stored
      simp only [Storage.view, PropertyMap.hasData]
      rw [Dictionary.WellFormed.find?_view stored key]
      cases table.get? key <;> rfl

/-- A layout that says that its keys are in enumeration order is right, and knows if they
are. -/
theorem WellFormed.keysOrdered_eq :
    heap.keysOrdered id = (!heap.isDictionary id && inEnumerationOrder (heap.view id).keys) := by
  have stored := wellFormed.storage id
  unfold keysOrdered layout? isDictionary shape? view
  cases storage : (heap.object id).storage with
  | shaped shape slots =>
      rw [storage] at stored
      rw [Storage.view, Layout.keys_view, ← stored.2.1.ordered_eq]
      rfl
  | dictionary table => rfl

end Reading

/-! ### Changing the storage of one object -/

/-- A step of any shape keeps what is there. -/
theorem WellFormed.transition_keeps {heap : Heap} (wellFormed : heap.WellFormed)
    (storeId : StoreId) (shape : ShapeId) (step : Transition) :
    (heap.transition storeId shape step).1.shapes.Faithful ∧
      (heap.transition storeId shape step).1.Grows heap ∧
      (heap.transition storeId shape step).1.objects = heap.objects := by
  have keeps := (heap.store storeId).transition_keeps wellFormed.faithful shape step
  have stays := (heap.store storeId).transition_store shape step heap.shapes
  have stores : ∀ id, ((heap.transition storeId shape step).1.store id).root =
        (heap.store id).root ∧
      ((heap.transition storeId shape step).1.store id).config = (heap.store id).config := by
    intro id
    have store_eq : (heap.transition storeId shape step).1.store id =
        (heap.stores.setIfInBounds storeId
          ((heap.store storeId).transition heap.shapes shape step).1).getD id default := rfl
    rw [store_eq, Array.getD_eq_getD_getElem?, Array.getElem?_setIfInBounds]
    split
    · rename_i same
      subst same
      split
      · exact stays
      · rename_i outside
        simp [store, outside]
    · simp [store]
  exact ⟨keeps.1, ⟨keeps.2, Array.size_setIfInBounds, fun id => (stores id).1,
    fun id => (stores id).2⟩, rfl⟩

/-- A heap that grows around its objects stays well-formed. -/
theorem WellFormed.grow {before after : Heap} (wellFormed : before.WellFormed)
    (faithful : after.shapes.Faithful) (grows : after.Grows before)
    (storage : ∀ id, (after.object id).storage.WellFormed after.shapes) : after.WellFormed where
  faithful := faithful
  root_lt := by
    intro store
    rw [grows.root_eq]
    exact Nat.lt_of_lt_of_le (wellFormed.root_lt store) grows.shapes.size_le
  root_layout := by
    intro store
    rw [grows.root_eq, grows.shapes.layout_eq _ (wellFormed.root_lt store)]
    exact wellFormed.root_layout store
  storage := storage

/-- The storage of one object replaced, after steps that changed no object. -/
private theorem updates_setStorage {before grown : Heap} (wellFormed : before.WellFormed)
    (faithful : grown.shapes.Faithful) (grows : grown.Grows before)
    (objects_eq : grown.objects = before.objects) (id : ObjectId) {storage : Storage}
    (stored : storage.WellFormed grown.shapes) :
    before.Updates id (storage.view grown.shapes) (grown.setStorage id storage) := by
  have sameObject : ∀ other, grown.object other = before.object other := by
    intro other
    rw [object, object, objects_eq]
  have content : (grown.setStorage id storage).SameContent
      { grown with
        objects := grown.objects.setIfInBounds id { grown.object id with storage := storage } } :=
    sameContent_setObject grown id _
  have shapes : (grown.setStorage id storage).shapes.Extends grown.shapes :=
    .of_shapes_eq content.shapes_eq
  have stores : ∀ store, (grown.setStorage id storage).store store = grown.store store := by
    intro store
    exact content.store_eq store
  have outside : ∀ other, other ≠ id ∨ before.objects.size ≤ other →
      (grown.setStorage id storage).object other = before.object other := by
    intro other apart
    rw [← objects_eq] at apart
    exact (object_setObject_other grown _ apart).trans (sameObject other)
  have inside : id < before.objects.size →
      (grown.setStorage id storage).object id = { before.object id with storage := storage } := by
    intro inRange
    rw [← objects_eq] at inRange
    rw [setStorage, object_setObject inRange, sameObject]
  have object_eq : (grown.setStorage id storage).object id =
      { before.object id with storage := ((grown.setStorage id storage).object id).storage } := by
    by_cases inRange : id < before.objects.size
    · rw [inside inRange]
    · rw [outside id (.inr (Nat.le_of_not_lt inRange))]
  have grown' : (grown.setStorage id storage).Grows before := by
    refine ⟨shapes.trans grows.shapes, ?_, ?_, ?_⟩
    · exact (congrArg Array.size content.stores_eq).trans grows.stores_size_eq
    · intro store
      rw [stores, grows.root_eq]
    · intro store
      rw [stores, grows.config_eq]
  refine ⟨wellFormed.grow (faithful.congr content.shapes_eq) grown' ?_, grown', ?_, outside,
    object_eq, ?_⟩
  · intro other
    rcases before.changed_or_apart id other with ⟨same, inRange⟩ | apart
    · rw [same, inside inRange]
      exact stored.mono shapes
    · rw [outside other apart]
      exact (wellFormed.storage other).mono grown'.shapes
  · rw [setStorage, size_setObject, objects_eq]
  · intro inRange
    rw [view, inside inRange]
    exact stored.view_mono shapes

/-- The slots replaced on the same shape. -/
private theorem updates_slots {heap : Heap} (wellFormed : heap.WellFormed) (id : ObjectId)
    {shape : ShapeId} (inRange : shape < heap.shapes.size)
    (layout : (heap.layout shape).WellFormed) {slots : List Slot}
    (fits : (heap.layout shape).Fits slots) {map : PropertyMap}
    (view_eq : (heap.layout shape).view slots = map) :
    heap.Updates id map (heap.setStorage id (.shaped shape slots)) := by
  have stored : (Storage.shaped shape slots).WellFormed heap.shapes :=
    ⟨inRange, layout, fits⟩
  rw [← view_eq]
  exact updates_setStorage wellFormed wellFormed.faithful (.refl heap) rfl id stored

/-- The table of a dictionary replaced. -/
private theorem updates_table {heap : Heap} (wellFormed : heap.WellFormed) (id : ObjectId)
    {table : Dictionary} (stored : table.WellFormed) {map : PropertyMap}
    (view_eq : table.view = map) :
    heap.Updates id map (heap.setStorage id (.dictionary table)) := by
  have stored' : (Storage.dictionary table).WellFormed heap.shapes := stored
  rw [← view_eq]
  exact updates_setStorage wellFormed wellFormed.faithful (.refl heap) rfl id stored'

/-- A step of the shape, and the slots that go with it. -/
private theorem updates_transition {heap : Heap} (wellFormed : heap.WellFormed)
    (id : ObjectId) {shape : ShapeId} (inRange : shape < heap.shapes.size)
    (layout : (heap.layout shape).WellFormed) (storeId : StoreId) (step : Transition)
    (allowed : (heap.layout shape).Allows step) {slots : List Slot} {map : PropertyMap}
    (described : ((heap.layout shape).after step).view slots = map ∧
      ((heap.layout shape).after step).Fits slots) :
    heap.Updates id map
      ((heap.transition storeId shape step).1.setStorage id
        (.shaped (heap.transition storeId shape step).2 slots)) := by
  obtain ⟨faithful, grows, objects_eq⟩ := wellFormed.transition_keeps storeId shape step
  obtain ⟨target, target_layout⟩ : (heap.transition storeId shape step).2 <
      (heap.transition storeId shape step).1.shapes.size ∧
      (heap.transition storeId shape step).1.shapes.layout
        (heap.transition storeId shape step).2 = (heap.layout shape).after step :=
    (heap.store storeId).transition_target wellFormed.faithful shape step inRange
  have stored : (Storage.shaped (heap.transition storeId shape step).2 slots).WellFormed
      (heap.transition storeId shape step).1.shapes := by
    refine ⟨target, ?_, ?_⟩
    · rw [target_layout]
      exact layout.after allowed
    · rw [target_layout]
      exact described.2
  have view_eq : (Storage.shaped (heap.transition storeId shape step).2 slots).view
      (heap.transition storeId shape step).1.shapes = map := by
    rw [Storage.view, target_layout]
    exact described.1
  rw [← view_eq]
  exact updates_setStorage wellFormed faithful grows objects_eq id stored

/-! ### The raw operations -/

section Operations

variable {heap : Heap} (wellFormed : heap.WellFormed) (id : ObjectId)

include wellFormed

/-- A write to a data property; without one nothing changes. -/
theorem WellFormed.updates_writeData (key : PropertyKey) (value : Value) :
    heap.Updates id ((heap.view id).write key value) (heap.writeData id key value) := by
  have stored := wellFormed.storage id
  have unchanged : heap.hasData id key = false →
      heap.Updates id ((heap.view id).write key value) heap := by
    intro noData
    rw [wellFormed.hasData_eq] at noData
    exact .refl wellFormed
      (PropertyMap.write_of_not_hasData (wellFormed.nodup_keys id) noData _).symm
  have keysNodup := wellFormed.nodup_keys id
  simp only [hasData, view] at unchanged keysNodup
  simp only [writeData, view]
  cases storage : (heap.object id).storage with
  | shaped shape slots =>
      rw [storage] at stored unchanged keysNodup
      obtain ⟨inRange, (layout : (heap.layout shape).WellFormed),
        (fits : (heap.layout shape).Fits slots)⟩ := stored
      cases found : (heap.layout shape).find? key with
      | none => simpa [found] using unchanged
      | some property =>
          by_cases isData : property.kind = .data
          · simp only [found, if_pos isData]
            have kind_eq : (Slot.data value).kind = property.kind := isData.symm
            apply updates_slots wellFormed id inRange layout
              (Layout.fits_set layout fits found kind_eq)
            rw [Layout.view_set layout fits found]
            have lookup : ((heap.layout shape).view slots).find? key =
                some (property.attributes, slots.getD property.slot default) := by
              rw [Layout.find?_view, found]
              rfl
            have slotKind := fits.kind_eq property (Layout.mem_of_find? found).1
            exact (PropertyMap.write_of_find? keysNodup lookup
              (slotKind.trans isData) value).1.symm
          · simpa [found, isData] using unchanged
  | dictionary table =>
      rw [storage] at stored unchanged keysNodup
      cases found : table.get? key with
      | none => simpa [found] using unchanged
      | some entry =>
          by_cases isData : entry.slot.kind = .data
          · simp only [found, if_pos isData]
            apply updates_table wellFormed id (Dictionary.WellFormed.update stored _ _)
            rw [Dictionary.view_update]
            have lookup : table.view.find? key = some (entry.attributes, entry.slot) := by
              rw [Dictionary.WellFormed.find?_view stored, found]
              rfl
            exact (PropertyMap.write_of_find? keysNodup lookup isData value).2.symm
          · simpa [found, isData] using unchanged

/-- A property added under a new key, in whichever storage the object has then. -/
theorem WellFormed.updates_addProperty {key : PropertyKey}
    (absent : key ∉ (heap.view id).keys) (attributes : Attributes) (slot : Slot) :
    heap.Updates id ((heap.view id).add key attributes slot)
      (heap.addProperty id key attributes slot) := by
  have stored := wellFormed.storage id
  simp only [view] at absent
  simp only [addProperty, view]
  cases storage : (heap.object id).storage with
  | shaped shape slots =>
      rw [storage] at stored absent
      obtain ⟨inRange, (layout : (heap.layout shape).WellFormed),
        (fits : (heap.layout shape).Fits slots)⟩ := stored
      have missing : (heap.layout shape).find? key = none := by
        rw [Layout.find?_eq_none_iff, ← Layout.keys_view _ slots]
        exact absent
      simp only
      split
      · obtain ⟨table, table_view⟩ := Dictionary.ofLayout_spec layout slots
        have fresh : (Dictionary.ofLayout (heap.layout shape) slots).get? key = none := by
          rw [Dictionary.get?_eq_none_iff, ← table.mem_keys_iff, ← table.keys_view, table_view]
          exact absent
        apply updates_table wellFormed id (Dictionary.wellFormed_insert table fresh _)
        rw [Dictionary.view_insert table fresh, table_view]
        rfl
      · exact updates_transition wellFormed id inRange layout _
          (.add key (attributes.stored slot.kind) slot.kind) missing
          (Layout.view_after_add layout fits missing _ slot)
  | dictionary table =>
      rw [storage] at stored absent
      have fresh : table.get? key = none := by
        rw [Dictionary.get?_eq_none_iff, ← Dictionary.WellFormed.mem_keys_iff stored,
          ← Dictionary.WellFormed.keys_view stored]
        exact absent
      exact updates_table wellFormed id (Dictionary.wellFormed_insert stored fresh _)
        (Dictionary.view_insert stored fresh _)

/-- Attributes and slot of a property replaced; without the property nothing changes. -/
theorem WellFormed.updates_replaceProperty (key : PropertyKey) (attributes : Attributes)
    (slot : Slot) :
    heap.Updates id ((heap.view id).replace key attributes slot)
      (heap.replaceProperty id key attributes slot) := by
  have stored := wellFormed.storage id
  have unchanged : key ∉ (heap.view id).keys →
      heap.Updates id ((heap.view id).replace key attributes slot) heap := by
    intro absent
    exact .refl wellFormed (PropertyMap.change_of_absent absent _).symm
  simp only [view] at unchanged
  simp only [replaceProperty, view]
  cases storage : (heap.object id).storage with
  | shaped shape slots =>
      rw [storage] at stored unchanged
      obtain ⟨inRange, (layout : (heap.layout shape).WellFormed),
        (fits : (heap.layout shape).Fits slots)⟩ := stored
      cases found : (heap.layout shape).find? key with
      | none =>
          simp only [found]
          apply unchanged
          rw [Layout.find?_eq_none_iff, ← Layout.keys_view _ slots] at found
          exact found
      | some property =>
          simp only [found]
          exact updates_transition wellFormed id inRange layout _
            (.reconfigure key (attributes.stored slot.kind) slot.kind) trivial
            (Layout.view_after_reconfigure layout fits found _ slot)
  | dictionary table =>
      rw [storage] at stored
      exact updates_table wellFormed id (Dictionary.WellFormed.update stored _ _)
        (Dictionary.view_update _ _)

/-- A property removed; without the property nothing changes. -/
theorem WellFormed.updates_removeProperty (key : PropertyKey) :
    heap.Updates id ((heap.view id).remove key) (heap.removeProperty id key) := by
  have stored := wellFormed.storage id
  have unchanged : key ∉ (heap.view id).keys →
      heap.Updates id ((heap.view id).remove key) heap := by
    intro absent
    exact .refl wellFormed (PropertyMap.remove_of_absent absent).symm
  simp only [view] at unchanged
  simp only [removeProperty, view]
  cases storage : (heap.object id).storage with
  | shaped shape slots =>
      rw [storage] at stored unchanged
      obtain ⟨inRange, (layout : (heap.layout shape).WellFormed),
        (fits : (heap.layout shape).Fits slots)⟩ := stored
      cases found : (heap.layout shape).find? key with
      | none =>
          simp only [found]
          apply unchanged
          rw [Layout.find?_eq_none_iff, ← Layout.keys_view _ slots] at found
          exact found
      | some property =>
          simp only [found]
          exact updates_transition wellFormed id inRange layout _ (.remove key) trivial
            (Layout.view_after_remove layout fits found)
  | dictionary table =>
      rw [storage] at stored
      obtain ⟨erased, erased_view⟩ := Dictionary.erase_spec stored key
      exact updates_table wellFormed id erased erased_view

theorem WellFormed.updates_preventExtensions :
    heap.Updates id (heap.view id).close (heap.preventExtensions id) := by
  have stored := wellFormed.storage id
  simp only [preventExtensions, view]
  cases storage : (heap.object id).storage with
  | shaped shape slots =>
      rw [storage] at stored
      obtain ⟨inRange, (layout : (heap.layout shape).WellFormed),
        (fits : (heap.layout shape).Fits slots)⟩ := stored
      exact updates_transition wellFormed id inRange layout _ .preventExtensions trivial
        (Layout.view_after_preventExtensions fits)
  | dictionary table =>
      rw [storage] at stored
      exact updates_table wellFormed id (Dictionary.WellFormed.preventExtensions stored) rfl

omit wellFormed in
/-- Protection to a level is left out where the layout says that there is nothing to do. -/
def skipsProtection (heap : Heap) (id : ObjectId) : Integrity → Bool
  | .sealed => false
  | .frozen => (heap.layout? id).any (·.frozen)

theorem WellFormed.updates_protectProperties (level : Integrity) :
    heap.Updates id
      (if heap.skipsProtection id level then heap.view id else (heap.view id).protect level)
      (heap.protectProperties id level) := by
  have stored := wellFormed.storage id
  have skips_eq : heap.skipsProtection id level =
      (level = .frozen && ((heap.object id).storage.shape?.map heap.layout).any (·.frozen)) := by
    cases level <;> rfl
  rw [skips_eq]
  simp only [protectProperties, view]
  cases storage : (heap.object id).storage with
  | shaped shape slots =>
      rw [storage] at stored
      obtain ⟨inRange, (layout : (heap.layout shape).WellFormed),
        (fits : (heap.layout shape).Fits slots)⟩ := stored
      cases level with
      | «sealed» =>
          exact updates_transition wellFormed id inRange layout _ .seal trivial
            (Layout.view_after_seal layout fits)
      | frozen =>
          exact updates_transition wellFormed id inRange layout _ .freeze trivial
            (Layout.view_after_freeze fits)
  | dictionary table =>
      rw [storage] at stored
      refine updates_table wellFormed id (Dictionary.WellFormed.protect stored level) ?_
      cases level <;> exact Dictionary.view_protect _

end Operations

/-! ### New stores and objects -/

section New

variable (heap : Heap)

theorem extends_addStore (config : Config) :
    (heap.addStore config).1.shapes.Extends heap.shapes :=
  ShapeGraph.extends_addRoot heap.shapes

theorem store_addStore (config : Config) (id : StoreId) :
    (heap.addStore config).1.store id =
      if id = heap.stores.size then { config := config, root := heap.shapes.addRoot.2 }
      else heap.store id := by
  have stores_eq : (heap.addStore config).1.stores =
      heap.stores.push { config := config, root := heap.shapes.addRoot.2 } := rfl
  rw [store, stores_eq, Array.getD_eq_getD_getElem?, Array.getElem?_push]
  split
  · rfl
  · rw [store, Array.getD_eq_getD_getElem?]

/-- The new store starts at an empty layout. -/
private theorem root_addStore (config : Config) :
    ((heap.addStore config).1.store heap.stores.size).root <
        (heap.addStore config).1.shapes.size ∧
      (heap.addStore config).1.shapes.layout
        ((heap.addStore config).1.store heap.stores.size).root = .empty := by
  rw [store_addStore, if_pos rfl]
  refine ⟨?_, ShapeGraph.layout_addRoot_new heap.shapes⟩
  have size := ShapeGraph.size_addRoot heap.shapes
  show heap.shapes.size < heap.shapes.addRoot.1.size
  omega

theorem WellFormed.addStore {heap : Heap} (wellFormed : heap.WellFormed) (config : Config) :
    (heap.addStore config).1.WellFormed := by
  have grown := extends_addStore heap config
  refine ⟨wellFormed.faithful.addRoot, ?_, ?_, ?_⟩
  · intro id
    by_cases isNew : id = heap.stores.size
    · rw [isNew]
      exact (root_addStore heap config).1
    · rw [store_addStore, if_neg isNew]
      exact Nat.lt_of_lt_of_le (wellFormed.root_lt id) grown.size_le
  · intro id
    by_cases isNew : id = heap.stores.size
    · rw [isNew]
      exact (root_addStore heap config).2
    · rw [store_addStore, if_neg isNew, grown.layout_eq _ (wellFormed.root_lt id)]
      exact wellFormed.root_layout id
  · intro id
    exact (wellFormed.storage id).mono grown

theorem WellFormed.view_addStore {heap : Heap} (wellFormed : heap.WellFormed)
    (config : Config) (id : ObjectId) : (heap.addStore config).1.view id = heap.view id :=
  (wellFormed.storage id).view_mono (extends_addStore heap config)

/-- A heap with one store and nothing else. -/
def start (config : Config) : Heap :=
  (({} : Heap).addStore config).1

theorem wellFormed_start (config : Config) : (start config).WellFormed := by
  have roots : ∀ id, ((start config).store id).root = 0 := by
    intro id
    rw [start, store_addStore]
    split <;> rfl
  refine ⟨ShapeGraph.faithful_empty.addRoot, ?_, ?_, ?_⟩
  · intro id
    rw [roots]
    exact Nat.zero_lt_one
  · intro id
    rw [roots]
    rfl
  · intro id
    exact ⟨Nat.zero_lt_one, Layout.wellFormed_empty, Layout.fits_empty⟩

variable (store : StoreId) (kind : ObjectKind) (prototype : Option ObjectId)
  (isLiteral : Bool)

/-- A new object without properties. -/
def freshObject : Object where
  store := store
  kind := kind
  isLiteral := isLiteral
  prototype := prototype
  storage := .shaped (heap.store store).root []

/-- Beside the counts, the new object is all that is added. -/
theorem sameContent_allocate :
    (heap.allocate store kind prototype isLiteral).1.SameContent
      { heap with
        objects := heap.objects.push (heap.freshObject store kind prototype isLiteral) } :=
  SameContent.trans
    (sameContent_hold { heap with
      objects := heap.objects.push (heap.freshObject store kind prototype isLiteral)
      uses := heap.uses.push 0 } heap.objects.size) ⟨rfl, rfl, rfl⟩

theorem size_allocate :
    (heap.allocate store kind prototype isLiteral).1.objects.size = heap.objects.size + 1 := by
  rw [(sameContent_allocate heap store kind prototype isLiteral).objects_eq]
  simp

theorem object_allocate (id : ObjectId) :
    (heap.allocate store kind prototype isLiteral).1.object id =
      if id = heap.objects.size then heap.freshObject store kind prototype isLiteral
      else heap.object id := by
  rw [(sameContent_allocate heap store kind prototype isLiteral).object_eq, object,
    Array.getD_eq_getD_getElem?, Array.getElem?_push]
  split
  · rfl
  · rw [object, Array.getD_eq_getD_getElem?]

theorem extends_allocate :
    (heap.allocate store kind prototype isLiteral).1.shapes.Extends heap.shapes :=
  .of_shapes_eq (sameContent_allocate heap store kind prototype isLiteral).shapes_eq

variable {heap} (wellFormed : heap.WellFormed)

include wellFormed

theorem WellFormed.allocate : (heap.allocate store kind prototype isLiteral).1.WellFormed := by
  have same := sameContent_allocate heap store kind prototype isLiteral
  have stored : ∀ id,
      ((heap.allocate store kind prototype isLiteral).1.object id).storage.WellFormed
        heap.shapes := by
    intro id
    rw [object_allocate]
    split
    · refine ⟨wellFormed.root_lt store, ?_, ?_⟩
      · rw [wellFormed.root_layout]
        exact Layout.wellFormed_empty
      · rw [wellFormed.root_layout]
        exact Layout.fits_empty
    · exact wellFormed.storage id
  simp only [same.object_eq] at stored
  let objects := heap.objects.push (heap.freshObject store kind prototype isLiteral)
  have pushed : ({ heap with objects := objects }).WellFormed :=
    ⟨wellFormed.faithful, wellFormed.root_lt, wellFormed.root_layout, stored⟩
  exact pushed.congr same

theorem WellFormed.view_allocate (id : ObjectId) :
    (heap.allocate store kind prototype isLiteral).1.view id =
      if id = heap.objects.size then .empty else heap.view id := by
  have grown := extends_allocate heap store kind prototype isLiteral
  rw [view, object_allocate]
  split
  · show ((heap.allocate store kind prototype isLiteral).1.shapes.layout
      (heap.store store).root).view [] = .empty
    rw [grown.layout_eq _ (wellFormed.root_lt store), wellFormed.root_layout]
    rfl
  · exact (wellFormed.storage id).view_mono grown

end New

end Heap

end ObjectModel
