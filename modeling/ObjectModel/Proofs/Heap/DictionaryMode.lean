import ObjectModel.Proofs.Heap.KeyOrder

/-!
Contract: when an object becomes a dictionary, and what that saves.

A raw operation keeps the form in which every object is stored (`Heap.KeepsForm`), but for the
addition of a property: that makes a dictionary of an object that the property is too much for
(`Heap.Outgrows`). No shape is made for an object that is a dictionary or becomes one.

Does not own: what is stored, in either form (`Heap.Store`).
-/

namespace ObjectModel.Heap

/-- A new property with this key is too much for an object on a shape. -/
structure Outgrows (heap : Heap) (id : ObjectId) (key : PropertyKey) : Prop where
  isLiteral : (heap.object id).isLiteral = true
  enabled : (heap.config id).dictionaryObjects = true
  tooMuch : (heap.ownKeys id = [] ∧ key.isIndex = true) ∨
    (heap.config id).dictionaryThreshold ≤ (heap.ownKeys id).length

/-- No shape is made, and none is forgotten. -/
structure SameShapes (after before : Heap) : Prop where
  shapes_eq : after.shapes.shapes = before.shapes.shapes
  stores_eq : after.stores = before.stores

/-- An operation on one object keeps the form of every object, and makes no shape for a
dictionary. -/
structure KeepsForm (before : Heap) (id : ObjectId) (after : Heap) : Prop where
  isDictionary_eq : ∀ other, after.isDictionary other = before.isDictionary other
  sameShapes : before.isDictionary id = true → after.SameShapes before

theorem Outgrows.inRange {heap : Heap} {id : ObjectId} {key : PropertyKey}
    (outgrows : heap.Outgrows id key) : id < heap.objects.size := by
  by_contra outside
  have isLiteral := outgrows.isLiteral
  rw [object_outside (Nat.le_of_not_lt outside)] at isLiteral
  contradiction

theorem SameShapes.trans {first second third : Heap} (later : third.SameShapes second)
    (earlier : second.SameShapes first) : third.SameShapes first :=
  ⟨later.shapes_eq.trans earlier.shapes_eq, later.stores_eq.trans earlier.stores_eq⟩

theorem KeepsForm.refl (heap : Heap) (id : ObjectId) : heap.KeepsForm id heap :=
  ⟨fun _ => rfl, fun _ => ⟨rfl, rfl⟩⟩

theorem KeepsForm.trans {first second third : Heap} {id : ObjectId}
    (later : second.KeepsForm id third) (earlier : first.KeepsForm id second) :
    first.KeepsForm id third where
  isDictionary_eq := fun other =>
    (later.isDictionary_eq other).trans (earlier.isDictionary_eq other)
  sameShapes := fun isDictionary =>
    (later.sameShapes ((earlier.isDictionary_eq id).trans isDictionary)).trans
      (earlier.sameShapes isDictionary)

/-! ### Raw operations -/

section Storage

variable {heap : Heap} {id : ObjectId}

theorem isDictionary_of_dictionary {table : Dictionary}
    (storage : (heap.object id).storage = .dictionary table) : heap.isDictionary id = true := by
  rw [isDictionary, shape?, storage]
  rfl

theorem isDictionary_of_shaped {shape : ShapeId} {slots : List Slot}
    (storage : (heap.object id).storage = .shaped shape slots) :
    heap.isDictionary id = false := by
  rw [isDictionary, shape?, storage]
  rfl

theorem isDictionary_setStorage_other (storage : Storage) {other : ObjectId}
    (apart : other ≠ id ∨ heap.objects.size ≤ other) :
    (heap.setStorage id storage).isDictionary other = heap.isDictionary other := by
  rw [isDictionary, shape?, setStorage, object_setObject_other heap _ apart]
  rfl

theorem isDictionary_setStorage (inRange : id < heap.objects.size) (storage : Storage) :
    (heap.setStorage id storage).isDictionary id = storage.shape?.isNone := by
  rw [isDictionary, shape?, setStorage, object_setObject inRange]

/-- A storage of the form that the object has, on as many shapes as it needs. -/
theorem keepsForm_setStorage {grown : Heap} (objects_eq : grown.objects = heap.objects)
    {storage : Storage} (sameForm : storage.shape?.isNone = heap.isDictionary id)
    (sameShapes : heap.isDictionary id = true → grown = heap) :
    heap.KeepsForm id (grown.setStorage id storage) where
  isDictionary_eq := fun other => by
    have unchanged : grown.isDictionary other = heap.isDictionary other := by
      rw [isDictionary, shape?, object, objects_eq]
      rfl
    rcases grown.changed_or_apart id other with ⟨rfl, inRange⟩ | apart
    · rw [isDictionary_setStorage inRange, sameForm]
    · rw [isDictionary_setStorage_other storage apart, unchanged]
  sameShapes := fun isDictionary => by
    obtain rfl := sameShapes isDictionary
    have content := sameContent_setObject grown id { grown.object id with storage := storage }
    exact ⟨content.shapes_eq, content.stores_eq⟩

theorem keepsForm_slots {shape : ShapeId} {slots : List Slot}
    (storage : (heap.object id).storage = .shaped shape slots) (slots' : List Slot) :
    heap.KeepsForm id (heap.setStorage id (.shaped shape slots')) :=
  keepsForm_setStorage rfl (isDictionary_of_shaped storage).symm fun _ => rfl

theorem keepsForm_transition {shape : ShapeId} {slots : List Slot}
    (storage : (heap.object id).storage = .shaped shape slots) (store : StoreId)
    (step : Transition) (slots' : List Slot) :
    heap.KeepsForm id ((heap.transition store shape step).1.setStorage id
      (.shaped (heap.transition store shape step).2 slots')) := by
  have isShaped := isDictionary_of_shaped storage
  have objects_eq : (heap.transition store shape step).1.objects = heap.objects := rfl
  refine keepsForm_setStorage objects_eq isShaped.symm fun isDictionary => ?_
  rw [isShaped] at isDictionary
  contradiction

theorem keepsForm_table {table : Dictionary}
    (storage : (heap.object id).storage = .dictionary table) (table' : Dictionary) :
    heap.KeepsForm id (heap.setStorage id (.dictionary table')) :=
  keepsForm_setStorage rfl (isDictionary_of_dictionary storage).symm fun _ => rfl

variable (heap id)

theorem keepsForm_writeData (key : PropertyKey) (value : Value) :
    heap.KeepsForm id (heap.writeData id key value) := by
  simp only [writeData]
  cases storage : (heap.object id).storage with
  | shaped shape slots =>
      simp only
      split
      · split
        · exact keepsForm_slots storage _
        · exact .refl heap id
      · exact .refl heap id
  | dictionary table =>
      simp only
      split
      · split
        · exact keepsForm_table storage _
        · exact .refl heap id
      · exact .refl heap id

theorem keepsForm_replaceProperty (key : PropertyKey) (attributes : Attributes) (slot : Slot) :
    heap.KeepsForm id (heap.replaceProperty id key attributes slot) := by
  simp only [replaceProperty]
  cases storage : (heap.object id).storage with
  | shaped shape slots =>
      simp only
      split
      · exact keepsForm_transition storage _ _ _
      · exact .refl heap id
  | dictionary table => exact keepsForm_table storage _

theorem keepsForm_removeProperty (key : PropertyKey) :
    heap.KeepsForm id (heap.removeProperty id key) := by
  simp only [removeProperty]
  cases storage : (heap.object id).storage with
  | shaped shape slots =>
      simp only
      split
      · exact keepsForm_transition storage _ _ _
      · exact .refl heap id
  | dictionary table => exact keepsForm_table storage _

theorem keepsForm_preventExtensions : heap.KeepsForm id (heap.preventExtensions id) := by
  simp only [preventExtensions]
  cases storage : (heap.object id).storage with
  | shaped shape slots => exact keepsForm_transition storage _ _ _
  | dictionary table => exact keepsForm_table storage _

theorem keepsForm_protectProperties (level : Integrity) :
    heap.KeepsForm id (heap.protectProperties id level) := by
  simp only [protectProperties]
  cases storage : (heap.object id).storage with
  | shaped shape slots => exact keepsForm_transition storage _ _ _
  | dictionary table => exact keepsForm_table storage _

theorem keepsForm_setIntegrity (level : Integrity) :
    heap.KeepsForm id (heap.setIntegrity id level) :=
  (keepsForm_preventExtensions _ id).trans (keepsForm_protectProperties heap id level)

theorem keepsForm_deleteOwn (key : PropertyKey) :
    heap.KeepsForm id (heap.deleteOwn id key).1 := by
  unfold deleteOwn
  split
  · exact .refl heap id
  · split
    · exact keepsForm_removeProperty heap id key
    · exact .refl heap id

theorem keepsForm_storeMerged (key : PropertyKey) (current : Descriptor)
    (attributes : Attributes) (slot : Slot) :
    heap.KeepsForm id (heap.storeMerged id key current attributes slot) := by
  cases slot with
  | accessor getter setter => exact keepsForm_replaceProperty heap id key attributes _
  | data value =>
      simp only [storeMerged]
      split
      · exact keepsForm_writeData heap id key value
      · exact keepsForm_replaceProperty heap id key attributes _

end Storage

/-! ### New properties -/

section Addition

variable {heap : Heap} (wellFormed : heap.WellFormed) (id : ObjectId)

include wellFormed

theorem WellFormed.length_ownKeys : (heap.ownKeys id).length = heap.propertyCount id := by
  rw [wellFormed.propertyCount_eq, (wellFormed.ownKeys_perm id).length_eq, PropertyMap.keys,
    List.length_map, PropertyMap.count]

theorem WellFormed.becomesDictionary_iff {shape : ShapeId} {slots : List Slot}
    (storage : (heap.object id).storage = .shaped shape slots) (key : PropertyKey) :
    becomesDictionary (heap.config id) (heap.object id).isLiteral (heap.layout shape) key = true ↔
      heap.Outgrows id key := by
  have count : (heap.layout shape).count = (heap.ownKeys id).length := by
    rw [wellFormed.length_ownKeys, propertyCount, storage]
  simp only [becomesDictionary, count, Bool.and_eq_true, Bool.or_eq_true, decide_eq_true_eq,
    List.length_eq_zero_iff]
  constructor
  · rintro ⟨⟨enabled, isLiteral⟩, tooMuch⟩
    exact ⟨isLiteral, enabled, tooMuch⟩
  · intro outgrows
    exact ⟨⟨outgrows.enabled, outgrows.isLiteral⟩, outgrows.tooMuch⟩

/-- A new property makes a dictionary of the object that it is too much for, and else keeps the
form. -/
theorem WellFormed.addProperty_form (key : PropertyKey) (attributes : Attributes) (slot : Slot) :
    heap.KeepsForm id (heap.addProperty id key attributes slot) ∧
        (heap.isDictionary id = true ∨ ¬heap.Outgrows id key) ∨
      heap.Outgrows id key ∧
        (heap.addProperty id key attributes slot).isDictionary id = true ∧
        (∀ other ≠ id, (heap.addProperty id key attributes slot).isDictionary other =
          heap.isDictionary other) ∧
        (heap.addProperty id key attributes slot).SameShapes heap := by
  simp only [addProperty]
  cases storage : (heap.object id).storage with
  | dictionary table =>
      exact .inl ⟨keepsForm_table storage _, .inl (isDictionary_of_dictionary storage)⟩
  | shaped shape slots =>
      simp only
      split
      · rename_i becomes
        have outgrows := (wellFormed.becomesDictionary_iff id storage key).mp becomes
        refine .inr ⟨outgrows, isDictionary_setStorage outgrows.inRange _,
          fun other different => isDictionary_setStorage_other _ (.inl different), ?_⟩
        have content := sameContent_setObject heap id { heap.object id with
          storage := .dictionary ((Dictionary.ofLayout (heap.layout shape) slots).insert key
            ⟨attributes.stored slot.kind, slot⟩) }
        exact ⟨content.shapes_eq, content.stores_eq⟩
      · rename_i stays
        refine .inl ⟨keepsForm_transition storage _ _ _, .inr fun outgrows => stays ?_⟩
        exact (wellFormed.becomesDictionary_iff id storage key).mpr outgrows

/-- A definition changes nothing, or adds a property that is absent, or stores one anew. -/
theorem WellFormed.defineOwn_stores (key : PropertyKey) (change : Descriptor) :
    (heap.defineOwn id key change).1 = heap ∨
      (∃ attributes slot, key ∉ (heap.view id).keys ∧
        (heap.defineOwn id key change).1 = heap.addProperty id key attributes slot) ∨
      ∃ current attributes slot, heap.getOwn id key = some current ∧
        (heap.defineOwn id key change).1 = heap.storeMerged id key current attributes slot := by
  unfold defineOwn validateAndApply
  split
  · exact .inl rfl
  simp only
  split
  · exact .inl rfl
  · exact .inl rfl
  · rename_i attributes slot _
    cases found : heap.getOwn id key with
    | none =>
        exact .inr (.inl ⟨attributes, slot, (wellFormed.getOwn_eq_none_iff id key).mp found, rfl⟩)
    | some current => exact .inr (.inr ⟨current, attributes, slot, rfl, rfl⟩)

end Addition

/-- A plain object keeps its shape while fields are added that it lacks. -/
theorem LacksFields.isDictionary_eq {heap : Heap} {id : ObjectId} {fields : List (String × Value)}
    (lacks : heap.LacksFields id fields) (notLiteral : (heap.object id).isLiteral = false)
    (other : ObjectId) :
    (fields.foldl (fun heap (name, value) =>
        heap.addProperty id (.ofString name) .assigned (.data value)) heap).isDictionary other =
      heap.isDictionary other := by
  induction fields generalizing heap with
  | nil => rfl
  | cons head rest inductionHypothesis =>
      obtain ⟨updates, stillLacks⟩ := lacks.step
      have stillNotLiteral := notLiteral
      rw [← congrArg Object.isLiteral (updates.object_frame id)] at stillNotLiteral
      refine (inductionHypothesis stillLacks stillNotLiteral).trans ?_
      obtain ⟨keeps, -⟩ | ⟨outgrows, -⟩ :=
        lacks.wellFormed.addProperty_form id (.ofString head.1) .assigned (.data head.2)
      · exact keeps.isDictionary_eq other
      · rw [outgrows.isLiteral] at notLiteral
        contradiction

/-! ### Commands -/

/-- What a command makes of the form of an object and of the keys that it has: it keeps the form
and adds no key, or it defines a new property, which may be too much for a shape. -/
inductive FormStep (heap : Heap) (id : ObjectId) (after : Heap) : Command → Prop
  | keep (command : Command) (form_eq : after.isDictionary id = heap.isDictionary id)
      (keys : id < heap.objects.size →
        (after.view id).keys.Sublist (heap.view id).keys) : FormStep heap id after command
  | add {key : PropertyKey} (change : Descriptor) (absent : key ∉ (heap.view id).keys)
      (form_iff : after.isDictionary id = true ↔
        heap.isDictionary id = true ∨ heap.Outgrows id key)
      (keys_eq : id < heap.objects.size →
        (after.view id).keys = (heap.view id).keys ++ [key]) :
      FormStep heap id after (.defineOwn id key change)

section Step

variable {heap : Heap} (wellFormed : heap.WellFormed)

/-- An object that has its storage still. -/
private theorem formStep_storage {after : Heap} {id : ObjectId}
    (storage_eq : (after.object id).storage = (heap.object id).storage)
    (view_eq : id < heap.objects.size → after.view id = heap.view id) (command : Command) :
    FormStep heap id after command := by
  refine .keep command ?_ fun inRange => ?_
  · rw [isDictionary, shape?, storage_eq]
    rfl
  · rw [view_eq inRange]

private theorem formStep_setObject {changed : ObjectId} {object : Object}
    (wellFormed : heap.WellFormed) (storage_eq : object.storage = (heap.object changed).storage)
    (id : ObjectId) (command : Command) :
    FormStep heap id (heap.setObject changed object) command := by
  refine formStep_storage ?_ (fun _ => (view_setObject wellFormed storage_eq).2 id) command
  rcases heap.changed_or_apart changed id with ⟨rfl, inRange⟩ | apart
  · rw [object_setObject inRange, storage_eq]
  · rw [object_setObject_other heap object apart]

private theorem formStep_sameContent {after : Heap} (same : after.SameContent heap)
    (id : ObjectId) (command : Command) : FormStep heap id after command :=
  formStep_storage (by rw [same.object_eq]) (fun _ => same.view_eq id) command

include wellFormed

/-- An operation that keeps the form of one object and adds no key to it. -/
private theorem formStep_updates {after : Heap} {changed : ObjectId} {map : PropertyMap}
    (updates : heap.Updates changed map after) (keeps : heap.KeepsForm changed after)
    (keys : map.keys.Sublist (heap.view changed).keys) (id : ObjectId) (command : Command) :
    FormStep heap id after command := by
  refine .keep command (keeps.isDictionary_eq id) fun inRange => ?_
  by_cases same : id = changed
  · subst same
    rwa [updates.view_eq inRange]
  · rw [updates.view_other wellFormed same]

theorem Command.formStep (command : Command) (id : ObjectId) :
    FormStep heap id (command.run heap).1 command := by
  cases command with
  | addStore config =>
      apply formStep_storage
      · rfl
      · exact fun _ => wellFormed.view_addStore config id
  | allocate store kind prototype isLiteral =>
      by_cases isNew : id = heap.objects.size
      · refine .keep _ ?_ fun inRange => absurd isNew (Nat.ne_of_lt inRange)
        rw [run, isDictionary, shape?, object_allocate, if_pos isNew, isNew, isDictionary, shape?,
          object_outside (Nat.le_refl _)]
        rfl
      · apply formStep_storage
        · rw [run, object_allocate, if_neg isNew]
        · intro _
          rw [run, wellFormed.view_allocate, if_neg isNew]
  | describe store descriptor =>
      have lacks := wellFormed.lacksFields_allocate store descriptor
      have made := object_allocate heap store .ordinary none false
      have form_eq : (run (.describe store descriptor) heap).1.isDictionary id =
          (heap.allocate store .ordinary none false).1.isDictionary id := by
        apply lacks.isDictionary_eq
        rw [made, if_pos rfl]
        rfl
      by_cases isNew : id = heap.objects.size
      · refine .keep _ ?_ fun inRange => absurd isNew (Nat.ne_of_lt inRange)
        rw [form_eq, isDictionary, shape?, made, if_pos isNew, isNew, isDictionary, shape?,
          object_outside (Nat.le_refl _)]
        rfl
      · refine .keep _ ?_ fun _ => ?_
        · rw [form_eq, isDictionary, shape?, made, if_neg isNew]
          rfl
        · rw [run, (wellFormed.updates_describe store descriptor).view_other lacks.wellFormed isNew,
            wellFormed.view_allocate, if_neg isNew]
  | revoke proxy =>
      simp only [run, Heap.revoke]
      split
      · apply formStep_setObject wellFormed
        rfl
      · exact formStep_sameContent (.refl heap) id _
  | setPrototypeOf changed prototype =>
      simp only [run, Heap.setPrototypeOf]
      split
      · exact formStep_sameContent (.refl heap) id _
      split
      · apply formStep_setObject wellFormed
        rfl
      · exact formStep_sameContent (.refl heap) id _
  | preventExtensions changed =>
      apply formStep_updates wellFormed (wellFormed.updates_preventExtensions changed)
        (keepsForm_preventExtensions heap changed)
      rw [PropertyMap.keys_close]
  | defineOwn changed key change =>
      rcases wellFormed.defineOwn_stores changed key change with
        same | ⟨attributes, slot, absent, added⟩ | ⟨current, attributes, slot, found, stored⟩
      · rw [run, same]
        exact formStep_sameContent (.refl heap) id _
      · rw [run, added]
        have updates := wellFormed.updates_addProperty changed absent attributes slot
        have form := wellFormed.addProperty_form changed key attributes slot
        by_cases same : id = changed
        · subst same
          refine .add change absent ?_ fun inRange => ?_
          · obtain ⟨keeps, stays⟩ | ⟨outgrows, isDictionary, -⟩ := form
            · rw [keeps.isDictionary_eq, or_iff_left_of_imp]
              exact fun outgrows => stays.resolve_right (not_not_intro outgrows)
            · exact ⟨fun _ => .inr outgrows, fun _ => isDictionary⟩
          · rw [updates.view_eq inRange, PropertyMap.keys_add]
        · refine .keep _ ?_ fun _ => by rw [updates.view_other wellFormed same]
          obtain ⟨keeps, -⟩ | ⟨-, -, others, -⟩ := form
          · exact keeps.isDictionary_eq id
          · exact others id same
      · rw [run, stored]
        apply formStep_updates wellFormed
          (wellFormed.updates_storeMerged changed found attributes slot)
          (keepsForm_storeMerged heap changed key current attributes slot)
        rw [PropertyMap.keys_replace]
  | writeData changed key value =>
      apply formStep_updates wellFormed (wellFormed.updates_writeData changed key value)
        (keepsForm_writeData heap changed key value)
      rw [PropertyMap.keys_write]
  | deleteOwn changed key =>
      simp only [run, Heap.deleteOwn]
      split
      · exact formStep_sameContent (.refl heap) id _
      split
      · apply formStep_updates wellFormed (wellFormed.updates_removeProperty changed key)
          (keepsForm_removeProperty heap changed key)
        rw [PropertyMap.keys_remove]
        exact List.filter_sublist
      · exact formStep_sameContent (.refl heap) id _
  | setIntegrity changed level =>
      apply formStep_updates wellFormed (wellFormed.updates_setIntegrity changed level)
        (keepsForm_setIntegrity heap changed level)
      split
      · rw [PropertyMap.keys_close]
      · rw [PropertyMap.keys_close, PropertyMap.keys_protect]
  | transition store shape step =>
      have objects_eq : (run (.transition store shape step) heap).1.objects = heap.objects := rfl
      apply formStep_storage
      · rw [object, objects_eq]
        rfl
      · intro _
        rw [run, (sameContent_holdShape _ _).view_eq, wellFormed.view_transition]
  | holdAll ids => exact formStep_sameContent (sameContent_holdAll heap ids) id _
  | releaseAll ids => exact formStep_sameContent (sameContent_releaseAll heap ids) id _
  | holdShape shape => exact formStep_sameContent (sameContent_holdShape heap shape) id _
  | releaseShape shape => exact formStep_sameContent (sameContent_releaseShape heap shape) id _

/-- An object becomes a dictionary exactly by the definition of a new property that is too much
for it, and stays one. -/
theorem Command.isDictionary_iff (command : Command) (id : ObjectId) :
    (command.run heap).1.isDictionary id = true ↔
      heap.isDictionary id = true ∨ ∃ key change, command = .defineOwn id key change ∧
        heap.getOwn id key = none ∧ ((command.run heap).1.getOwn id key).isSome = true ∧
        heap.Outgrows id key := by
  have stillWellFormed := command.wellFormed wellFormed
  have step := command.formStep wellFormed id
  generalize (command.run heap).1 = after at stillWellFormed step ⊢
  cases step with
  | keep _ form_eq keys =>
      rw [form_eq, or_iff_left_of_imp]
      rintro ⟨key, change, -, lacks, present, outgrows⟩
      rw [stillWellFormed.isSome_getOwn_iff] at present
      rw [wellFormed.getOwn_eq_none_iff] at lacks
      exact absurd ((keys outgrows.inRange).subset present) lacks
  | @add key change absent form_iff keys_eq =>
      rw [form_iff]
      refine or_congr_right ⟨fun outgrows => ⟨key, change, rfl, ?_, ?_, outgrows⟩, ?_⟩
      · exact (wellFormed.getOwn_eq_none_iff id key).mpr absent
      · rw [stillWellFormed.isSome_getOwn_iff, keys_eq outgrows.inRange]
        exact List.mem_append_right _ (List.mem_singleton_self key)
      · rintro ⟨_, _, isDefinition, -, -, outgrows⟩
        cases isDefinition
        exact outgrows

/-- The object whose own properties, or whose extensibility, the command may change. -/
def Command.owner? : Command → Option ObjectId
  | .preventExtensions id => some id
  | .defineOwn id _ _ => some id
  | .writeData id _ _ => some id
  | .deleteOwn id _ => some id
  | .setIntegrity id _ => some id
  | _ => none

/-- No shape is made for an object that is a dictionary in the end. -/
theorem Command.sameShapes {command : Command} {id : ObjectId} (isOwner : command.owner? = some id)
    (isDictionary : (command.run heap).1.isDictionary id = true) :
    (command.run heap).1.SameShapes heap := by
  have kept : heap.KeepsForm id (command.run heap).1 → (command.run heap).1.SameShapes heap :=
    fun keeps => keeps.sameShapes (keeps.isDictionary_eq id ▸ isDictionary)
  cases command <;> cases isOwner
  case preventExtensions => exact kept (keepsForm_preventExtensions heap id)
  case writeData key value => exact kept (keepsForm_writeData heap id key value)
  case deleteOwn key => exact kept (keepsForm_deleteOwn heap id key)
  case setIntegrity level => exact kept (keepsForm_setIntegrity heap id level)
  case defineOwn key change =>
      rcases wellFormed.defineOwn_stores id key change with
        same | ⟨attributes, slot, -, added⟩ | ⟨current, attributes, slot, -, stored⟩
      · rw [run, same]
        exact ⟨rfl, rfl⟩
      · rw [run, added] at kept ⊢
        obtain ⟨keeps, -⟩ | ⟨-, -, -, same⟩ := wellFormed.addProperty_form id key attributes slot
        · exact kept keeps
        · exact same
      · rw [run, stored] at kept ⊢
        exact kept (keepsForm_storeMerged heap id key current attributes slot)

end Step

end ObjectModel.Heap
