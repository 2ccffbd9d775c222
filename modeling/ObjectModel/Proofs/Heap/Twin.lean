import ObjectModel.Proofs.Machine.Simulation

/-!
Contract: two heaps that differ in how they store the same objects.

The objects of `Heap.Twin` heaps hold the same properties in the same order, on a shape or in a
dictionary, and their stores differ only in settings that decide about storage. Internal
methods see no difference (`Twin.alike`), and the same command on both gives the same answer and
twins again (`Twin.command`).

Freezing is left out, and with it the question whether an object is frozen: a layout may say
that it is frozen while a property is writable still, and a dictionary never does.

Does not own: which commands a program takes.
-/

namespace ObjectModel

/-! ### Enumeration order -/

namespace PropertyKey

/-- Keys that are in order are not moved by sorting. -/
theorem sorted_of_inEnumerationOrder {keys : List PropertyKey}
    (ordered : inEnumerationOrder keys = true) : sorted keys = keys :=
  List.mergeSort_of_pairwise (inEnumerationOrder_iff_pairwise.mp ordered)

end PropertyKey

namespace Heap

/-! ### What is seen of an object -/

section Seen

variable {heap : Heap} (wellFormed : heap.WellFormed) (id : ObjectId)

include wellFormed

/-- Keys that are said to be in order are not moved by sorting. -/
theorem WellFormed.sorted_keys (ordered : heap.keysOrdered id = true) :
    PropertyKey.sorted (heap.keys id) = heap.keys id := by
  rw [wellFormed.keysOrdered_eq, Bool.and_eq_true] at ordered
  rw [wellFormed.keys_eq]
  exact PropertyKey.sorted_of_inEnumerationOrder ordered.2

/-- The quick answer to a request for the keys is the answer. -/
theorem WellFormed.ownKeys_eq : heap.ownKeys id = PropertyKey.sorted (heap.view id).keys := by
  rw [ownKeys, ← wellFormed.keys_eq]
  split
  · rename_i quick
    rw [Bool.and_eq_true] at quick
    exact (wellFormed.sorted_keys id quick.1).symm
  · rfl

/-- Whether an object is sealed is decided by its properties. -/
theorem WellFormed.testIntegrity_sealed :
    heap.testIntegrity id .sealed =
      (!(heap.view id).extensible &&
        (heap.view id).keys.all fun key =>
          ((heap.view id).find? key).all fun (attributes, slot) =>
            isProtected .sealed attributes slot) := by
  have scan_eq : (heap.keys id).all (fun key =>
      (heap.lookup id key).all fun (attributes, slot) => isProtected .sealed attributes slot) =
      (heap.view id).keys.all fun key =>
        ((heap.view id).find? key).all fun (attributes, slot) =>
          isProtected .sealed attributes slot := by
    simp only [wellFormed.keys_eq, wellFormed.lookup_eq]
  rw [testIntegrity, isExtensible_eq, scan_eq]
  cases flagged : (heap.layout? id).any (layoutHasIntegrity · .sealed) with
  | false => rw [Bool.false_or]
  | true =>
      obtain ⟨layout, found, quick⟩ := (Option.any_eq_true _ _).mp flagged
      have scanned : (heap.view id).keys.all (fun key =>
          ((heap.view id).find? key).all fun (attributes, slot) =>
            isProtected .sealed attributes slot) = true := by
        rw [List.all_eq_true]
        intro key _
        rw [Option.all_eq_true]
        rintro ⟨attributes, slot⟩ stored
        rw [← wellFormed.lookup_eq] at stored
        simp [isProtected, wellFormed.fixed_of_layout id found quick stored]
      rw [scanned, Bool.true_or]

end Seen

/-! ### Twins -/

/-- The same objects with the same properties, in stores that may differ in how objects are
stored. -/
structure Twin (left right : Heap) : Prop where
  left_wellFormed : left.WellFormed
  right_wellFormed : right.WellFormed
  size_eq : right.objects.size = left.objects.size
  stores_size_eq : right.stores.size = left.stores.size
  maxProxyDepth_eq : ∀ store,
    (right.store store).config.maxProxyDepth = (left.store store).config.maxProxyDepth
  object_eq : ∀ id,
    right.object id = { left.object id with storage := (right.object id).storage }
  view_eq : ∀ id, right.view id = left.view id

namespace Twin

variable {left right : Heap} (twin : left.Twin right)

include twin

theorem kind_eq (id : ObjectId) : right.kind id = left.kind id := by
  rw [kind, twin.object_eq, kind]

theorem prototype_eq (id : ObjectId) : right.prototype id = left.prototype id := by
  rw [prototype, twin.object_eq, prototype]

/-- Internal methods see no difference. -/
theorem alike : left.Alike (· = .sealed) right where
  size_eq := twin.size_eq
  store_eq := fun id => by rw [twin.object_eq]
  kind_eq := twin.kind_eq
  prototype_eq := twin.prototype_eq
  maxProxyDepth_eq := fun id => by
    rw [config, config, twin.object_eq, twin.maxProxyDepth_eq]
  lookup_eq := fun id key => by
    rw [twin.right_wellFormed.lookup_eq, twin.left_wellFormed.lookup_eq, twin.view_eq]
  hasData_eq := fun id key => by
    rw [twin.right_wellFormed.hasData_eq, twin.left_wellFormed.hasData_eq, twin.view_eq]
  isExtensible_eq := fun id => by rw [isExtensible_eq, isExtensible_eq, twin.view_eq]
  ownKeys_eq := fun id => by
    rw [twin.right_wellFormed.ownKeys_eq, twin.left_wellFormed.ownKeys_eq, twin.view_eq]
  testIntegrity_eq := by
    rintro id _ rfl
    rw [twin.right_wellFormed.testIntegrity_sealed, twin.left_wellFormed.testIntegrity_sealed,
      twin.view_eq]

/-! ### Commands -/

variable {left' right' : Heap}

/-- Uses may be counted on both sides. -/
theorem congr (sameLeft : left'.SameContent left) (sameRight : right'.SameContent right) :
    left'.Twin right' where
  left_wellFormed := twin.left_wellFormed.congr sameLeft
  right_wellFormed := twin.right_wellFormed.congr sameRight
  size_eq := by rw [sameLeft.objects_eq, sameRight.objects_eq, twin.size_eq]
  stores_size_eq := by rw [sameLeft.stores_eq, sameRight.stores_eq, twin.stores_size_eq]
  maxProxyDepth_eq := fun store => by
    rw [sameLeft.store_eq, sameRight.store_eq, twin.maxProxyDepth_eq]
  object_eq := fun id => by rw [sameLeft.object_eq, sameRight.object_eq, ← twin.object_eq]
  view_eq := fun id => by rw [sameLeft.view_eq, sameRight.view_eq, twin.view_eq]

/-- The same change of one object, whatever it takes on either side. -/
theorem updates {id : ObjectId} {map : PropertyMap} (onLeft : left.Updates id map left')
    (onRight : right.Updates id map right') : left'.Twin right' where
  left_wellFormed := onLeft.wellFormed
  right_wellFormed := onRight.wellFormed
  size_eq := by rw [onLeft.size_eq, onRight.size_eq, twin.size_eq]
  stores_size_eq := by
    rw [onLeft.grows.stores_size_eq, onRight.grows.stores_size_eq, twin.stores_size_eq]
  maxProxyDepth_eq := fun store => by
    rw [onLeft.grows.config_eq, onRight.grows.config_eq, twin.maxProxyDepth_eq]
  object_eq := fun other => by
    rw [onRight.object_frame, twin.object_eq, onLeft.object_frame other]
  view_eq := fun other => by
    rcases left.changed_or_apart id other with ⟨rfl, inRange⟩ | apart
    · rw [onLeft.view_eq inRange, onRight.view_eq (by rwa [twin.size_eq])]
    · have apart' : other ≠ id ∨ right.objects.size ≤ other := by rwa [twin.size_eq]
      rw [onLeft.view_apart twin.left_wellFormed apart,
        onRight.view_apart twin.right_wellFormed apart', twin.view_eq]

/-- An object replaced by one with the same storage, on both sides. -/
theorem setObject (id : ObjectId) {object object' : Object}
    (same : object' = { object with storage := object'.storage })
    (onLeft : object.storage = (left.object id).storage)
    (onRight : object'.storage = (right.object id).storage) :
    (left.setObject id object).Twin (right.setObject id object') where
  left_wellFormed := (view_setObject twin.left_wellFormed onLeft).1
  right_wellFormed := (view_setObject twin.right_wellFormed onRight).1
  size_eq := by rw [size_setObject, size_setObject, twin.size_eq]
  stores_size_eq := by
    rw [(sameContent_setObject left id object).stores_eq,
      (sameContent_setObject right id object').stores_eq]
    exact twin.stores_size_eq
  maxProxyDepth_eq := fun store => by
    rw [(sameContent_setObject left id object).store_eq,
      (sameContent_setObject right id object').store_eq]
    exact twin.maxProxyDepth_eq store
  object_eq := fun other => by
    rcases left.changed_or_apart id other with ⟨rfl, inRange⟩ | apart
    · rw [object_setObject inRange, object_setObject (by rwa [twin.size_eq])]
      exact same
    · have apart' : other ≠ id ∨ right.objects.size ≤ other := by rwa [twin.size_eq]
      rw [object_setObject_other left object apart, object_setObject_other right object' apart']
      exact twin.object_eq other
  view_eq := fun other => by
    rw [(view_setObject twin.left_wellFormed onLeft).2,
      (view_setObject twin.right_wellFormed onRight).2, twin.view_eq]

theorem addStore (config : Config) :
    (right.addStore config).2 = (left.addStore config).2 ∧
      (left.addStore config).1.Twin (right.addStore config).1 := by
  refine ⟨twin.stores_size_eq, ?_⟩
  exact {
    left_wellFormed := twin.left_wellFormed.addStore config
    right_wellFormed := twin.right_wellFormed.addStore config
    size_eq := twin.size_eq
    stores_size_eq := by
      show (right.stores.push _).size = (left.stores.push _).size
      rw [Array.size_push, Array.size_push, twin.stores_size_eq]
    maxProxyDepth_eq := fun store => by
      rw [store_addStore, store_addStore, twin.stores_size_eq]
      split
      · rfl
      · exact twin.maxProxyDepth_eq store
    object_eq := twin.object_eq
    view_eq := fun id => by
      rw [twin.left_wellFormed.view_addStore, twin.right_wellFormed.view_addStore, twin.view_eq] }

theorem allocate (store : StoreId) (kind : ObjectKind) (prototype : Option ObjectId)
    (isLiteral : Bool) :
    (right.allocate store kind prototype isLiteral).2 =
        (left.allocate store kind prototype isLiteral).2 ∧
      (left.allocate store kind prototype isLiteral).1.Twin
        (right.allocate store kind prototype isLiteral).1 := by
  refine ⟨twin.size_eq, ?_⟩
  have addedLeft := sameContent_allocate left store kind prototype isLiteral
  have addedRight := sameContent_allocate right store kind prototype isLiteral
  exact {
    left_wellFormed := twin.left_wellFormed.allocate store kind prototype isLiteral
    right_wellFormed := twin.right_wellFormed.allocate store kind prototype isLiteral
    size_eq := by rw [size_allocate, size_allocate, twin.size_eq]
    stores_size_eq := by
      rw [addedLeft.stores_eq, addedRight.stores_eq]
      exact twin.stores_size_eq
    maxProxyDepth_eq := fun store => by
      rw [addedLeft.store_eq, addedRight.store_eq]
      exact twin.maxProxyDepth_eq store
    object_eq := fun id => by
      rw [object_allocate, object_allocate, twin.size_eq]
      split
      · rfl
      · exact twin.object_eq id
    view_eq := fun id => by
      rw [twin.left_wellFormed.view_allocate, twin.right_wellFormed.view_allocate, twin.size_eq,
        twin.view_eq] }

theorem describe (store : StoreId) (descriptor : Descriptor) :
    (right.describe store descriptor).2 = (left.describe store descriptor).2 ∧
      (left.describe store descriptor).1.Twin (right.describe store descriptor).1 := by
  have onRight := twin.right_wellFormed.updates_describe store descriptor
  rw [twin.size_eq] at onRight
  exact ⟨twin.size_eq, (twin.allocate store .ordinary none false).2.updates
    (twin.left_wellFormed.updates_describe store descriptor) onRight⟩

theorem revoke (id : ObjectId) : (left.revoke id).Twin (right.revoke id) := by
  simp only [Heap.revoke, twin.alike.resembles.proxy?_eq]
  cases left.proxy? id with
  | none => exact twin
  | some link => exact twin.setObject id (by rw [twin.object_eq]) rfl rfl

theorem setPrototypeOf (id : ObjectId) (prototype : Option ObjectId) :
    (right.setPrototypeOf id prototype).2 = (left.setPrototypeOf id prototype).2 ∧
      (left.setPrototypeOf id prototype).1.Twin (right.setPrototypeOf id prototype).1 := by
  simp only [Heap.setPrototypeOf, twin.alike.prototype_eq, twin.alike.isExtensible_eq,
    twin.alike.resembles.admitsPrototype_eq]
  split
  · exact ⟨rfl, twin⟩
  split
  · exact ⟨rfl, twin.setObject id (by rw [twin.object_eq]) rfl rfl⟩
  · exact ⟨rfl, twin⟩

theorem storeProperty (id : ObjectId) (key : PropertyKey) (attributes : Attributes)
    (slot : Slot) :
    (left.storeProperty id key (left.getOwn id key) attributes slot).Twin
      (right.storeProperty id key (left.getOwn id key) attributes slot) := by
  have sameOwn : right.getOwn id key = left.getOwn id key := twin.alike.resembles.getOwn_eq id key
  cases found : left.getOwn id key with
  | none =>
      have absent := (twin.left_wellFormed.getOwn_eq_none_iff id key).mp found
      have absent' := (twin.right_wellFormed.getOwn_eq_none_iff id key).mp (sameOwn.trans found)
      have onRight := twin.right_wellFormed.updates_addProperty id absent' attributes slot
      rw [twin.view_eq] at onRight
      exact twin.updates (twin.left_wellFormed.updates_addProperty id absent attributes slot)
        onRight
  | some current =>
      have onRight := twin.right_wellFormed.updates_storeMerged id (sameOwn.trans found)
        attributes slot
      rw [twin.view_eq] at onRight
      exact twin.updates (twin.left_wellFormed.updates_storeMerged id found attributes slot)
        onRight

theorem defineOwn (id : ObjectId) (key : PropertyKey) (change : Descriptor) :
    (right.defineOwn id key change).2 = (left.defineOwn id key change).2 ∧
      (left.defineOwn id key change).1.Twin (right.defineOwn id key change).1 := by
  have callable : right.isCallable = left.isCallable := funext twin.alike.resembles.isCallable_eq
  simp only [Heap.defineOwn, validateAndApply, twin.alike.resembles.getOwn_eq,
    twin.alike.isExtensible_eq, callable]
  split
  · exact ⟨rfl, twin⟩
  split
  · exact ⟨rfl, twin⟩
  · exact ⟨rfl, twin⟩
  · exact ⟨rfl, twin.storeProperty id key _ _⟩

theorem deleteOwn (id : ObjectId) (key : PropertyKey) :
    (right.deleteOwn id key).2 = (left.deleteOwn id key).2 ∧
      (left.deleteOwn id key).1.Twin (right.deleteOwn id key).1 := by
  simp only [Heap.deleteOwn, twin.alike.lookup_eq]
  split
  · exact ⟨rfl, twin⟩
  split
  · have onRight := twin.right_wellFormed.updates_removeProperty id key
    rw [twin.view_eq] at onRight
    exact ⟨rfl, twin.updates (twin.left_wellFormed.updates_removeProperty id key) onRight⟩
  · exact ⟨rfl, twin⟩

theorem setIntegrity_sealed (id : ObjectId) :
    (left.setIntegrity id .sealed).Twin (right.setIntegrity id .sealed) := by
  have onLeft := twin.left_wellFormed.updates_setIntegrity id .sealed
  have onRight := twin.right_wellFormed.updates_setIntegrity id .sealed
  rw [twin.view_eq] at onRight
  exact twin.updates onLeft onRight

end Twin

end Heap

/-- Nothing is frozen and shapes are not handled; all else may be asked for. -/
def Scope.withoutFreezing : Scope where
  changes _ := True
  prototypes _ := True
  levels level := level = .sealed
  storage := False
  writable := False
  changes_of_not_mixed _ := trivial
  prototypes_none := trivial

/-- The same command on twins gives the same answer and twins. -/
theorem Heap.Twin.command {left right : Heap} (twin : left.Twin right) (command : Command)
    (within : command.Within .withoutFreezing left) :
    (command.run right).2 = (command.run left).2 ∧
      (command.run left).1.Twin (command.run right).1 := by
  cases command with
  | addStore config => exact twin.addStore config
  | allocate store kind prototype isLiteral =>
      exact twin.allocate store kind prototype isLiteral
  | describe store descriptor => exact twin.describe store descriptor
  | revoke proxy => exact ⟨rfl, twin.revoke proxy⟩
  | setPrototypeOf id prototype => exact twin.setPrototypeOf id prototype
  | preventExtensions id =>
      have onRight := twin.right_wellFormed.updates_preventExtensions id
      rw [twin.view_eq] at onRight
      exact ⟨rfl, twin.updates (twin.left_wellFormed.updates_preventExtensions id) onRight⟩
  | defineOwn id key change => exact twin.defineOwn id key change
  | writeData id key value =>
      have onRight := twin.right_wellFormed.updates_writeData id key value
      rw [twin.view_eq] at onRight
      exact ⟨rfl, twin.updates (twin.left_wellFormed.updates_writeData id key value) onRight⟩
  | deleteOwn id key => exact twin.deleteOwn id key
  | setIntegrity id level =>
      obtain ⟨-, rfl⟩ := within
      exact ⟨rfl, twin.setIntegrity_sealed id⟩
  | holdAll ids => exact ⟨rfl, twin.congr (sameContent_holdAll _ ids) (sameContent_holdAll _ ids)⟩
  | releaseAll ids =>
      exact ⟨rfl, twin.congr (sameContent_releaseAll _ ids) (sameContent_releaseAll _ ids)⟩
  | transition store shape step => exact within.elim
  | holdShape shape => exact within.elim
  | releaseShape shape => exact within.elim

/-- Two stores that differ in how they store objects start twins. -/
theorem Heap.twin_start {config config' : Config}
    (sameDepth : config'.maxProxyDepth = config.maxProxyDepth) :
    (start config).Twin (start config') where
  left_wellFormed := wellFormed_start config
  right_wellFormed := wellFormed_start config'
  size_eq := rfl
  stores_size_eq := rfl
  maxProxyDepth_eq := fun store => by
    rw [start, start, store_addStore, store_addStore]
    split
    · exact sameDepth
    · rfl
  object_eq := fun _ => rfl
  view_eq := fun _ => rfl

end ObjectModel
