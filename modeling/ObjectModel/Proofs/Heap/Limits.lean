import ObjectModel.Proofs.Machine.Simulation

/-!
Contract: how deep proxies may nest is no business of the heap.

`Heap.withLimits` gives the stores of a heap other nesting limits. Every command does the same
on both heaps, with the same answer, and leaves the limits as they are
(`Command.run_withLimits`); only a new store comes with a limit of its own. So does a
definition that was validated against any description.

Owns: heaps that are equal but for their limits (`Heap.Roomier`).
-/

namespace ObjectModel

/-- The store with another nesting limit. -/
def ShapeStore.withLimit (store : ShapeStore) (limit : Nat) : ShapeStore :=
  { store with config := { store.config with maxProxyDepth := limit } }

theorem ShapeStore.transition_withLimit (store : ShapeStore) (limit : Nat) (graph : ShapeGraph)
    (shape : ShapeId) (step : Transition) :
    (store.withLimit limit).transition graph shape step =
      ((store.transition graph shape step).1.withLimit limit,
        (store.transition graph shape step).2) := by
  unfold transition
  cases graph.next? shape step <;> rfl

namespace Heap

/-- The nesting limit of a store. -/
def limit (heap : Heap) (store : StoreId) : Nat :=
  (heap.store store).config.maxProxyDepth

/-- The heap with other nesting limits. -/
def withLimits (heap : Heap) (limits : StoreId → Nat) : Heap :=
  { heap with stores := heap.stores.mapIdx fun id store => store.withLimit (limits id) }

variable (heap : Heap) (limits : StoreId → Nat)

/-! ### What is seen of a heap -/

theorem store_withLimits (id : StoreId) :
    (heap.withLimits limits).store id =
      if id < heap.stores.size then (heap.store id).withLimit (limits id) else heap.store id := by
  simp only [store, withLimits, Array.getD_eq_getD_getElem?, Array.getElem?_mapIdx]
  split
  · rename_i inRange
    rw [Array.getElem?_eq_getElem inRange]
    rfl
  · rename_i outside
    rw [Array.getElem?_eq_none (Nat.le_of_not_lt outside)]
    rfl

theorem limit_withLimits {id : StoreId} (inRange : id < heap.stores.size) :
    (heap.withLimits limits).limit id = limits id := by
  rw [limit, store_withLimits, if_pos inRange]
  rfl

theorem withLimits_limit : heap.withLimits heap.limit = heap := by
  have same : heap.stores.mapIdx (fun id store => store.withLimit (heap.limit id)) =
      heap.stores := by
    refine Array.ext (by simp) fun id inRange inRange' => ?_
    simp [limit, store, inRange', ShapeStore.withLimit]
  rw [withLimits, same]

@[simp] theorem objects_withLimits : (heap.withLimits limits).objects = heap.objects := rfl

@[simp] theorem uses_withLimits : (heap.withLimits limits).uses = heap.uses := rfl

@[simp] theorem shapes_withLimits : (heap.withLimits limits).shapes = heap.shapes := rfl

@[simp] theorem size_withLimits :
    (heap.withLimits limits).stores.size = heap.stores.size :=
  Array.size_mapIdx

@[simp] theorem root_withLimits (id : StoreId) :
    ((heap.withLimits limits).store id).root = (heap.store id).root := by
  rw [store_withLimits]
  split <;> rfl

@[simp] theorem becomesDictionary_withLimits (id : ObjectId) :
    becomesDictionary ((heap.withLimits limits).config id) =
      becomesDictionary (heap.config id) := by
  have settings : ∀ store,
      becomesDictionary ((heap.withLimits limits).store store).config =
        becomesDictionary (heap.store store).config := by
    intro store
    rw [store_withLimits]
    split <;> rfl
  exact settings _

@[simp] theorem fastOwnKeys_withLimits (id : ObjectId) :
    ((heap.withLimits limits).config id).fastOwnKeys = (heap.config id).fastOwnKeys := by
  have settings : ∀ store, ((heap.withLimits limits).store store).config.fastOwnKeys =
      (heap.store store).config.fastOwnKeys := by
    intro store
    rw [store_withLimits]
    split <;> rfl
  exact settings _

@[simp] theorem object_withLimits : (heap.withLimits limits).object = heap.object := rfl

@[simp] theorem kind_withLimits : (heap.withLimits limits).kind = heap.kind := rfl

@[simp] theorem proxy?_withLimits : (heap.withLimits limits).proxy? = heap.proxy? := rfl

@[simp] theorem isExotic_withLimits : (heap.withLimits limits).isExotic = heap.isExotic := rfl

@[simp] theorem prototype_withLimits : (heap.withLimits limits).prototype = heap.prototype := rfl

@[simp] theorem layout_withLimits : (heap.withLimits limits).layout = heap.layout := rfl

@[simp] theorem isInUse_withLimits : (heap.withLimits limits).isInUse = heap.isInUse := rfl

@[simp] theorem lookup_withLimits : (heap.withLimits limits).lookup = heap.lookup := rfl

@[simp] theorem getOwn_withLimits : (heap.withLimits limits).getOwn = heap.getOwn := rfl

@[simp] theorem hasData_withLimits : (heap.withLimits limits).hasData = heap.hasData := rfl

@[simp] theorem isExtensible_withLimits :
    (heap.withLimits limits).isExtensible = heap.isExtensible := rfl

@[simp] theorem ownKeys_withLimits : (heap.withLimits limits).ownKeys = heap.ownKeys := by
  funext id
  rw [ownKeys, fastOwnKeys_withLimits]
  rfl

@[simp] theorem isCallable_withLimits :
    (heap.withLimits limits).isCallable = heap.isCallable :=
  funext (isCallable_congr rfl fun id => by rw [kind_withLimits])

@[simp] theorem admitsPrototype_withLimits :
    (heap.withLimits limits).admitsPrototype = heap.admitsPrototype := by
  have within : ∀ steps start, (heap.withLimits limits).walkWithin steps start =
      heap.walkWithin steps start := by
    intro steps
    induction steps with
    | zero => exact fun _ => rfl
    | succ steps inductionHypothesis =>
        intro start
        cases start with
        | none => rfl
        | some id =>
            rw [walkWithin, walkWithin, isExotic_withLimits, prototype_withLimits,
              inductionHypothesis]
  funext id prototype
  rw [admitsPrototype, admitsPrototype, walk, walk, within]
  rfl

/-! ### What is done to a heap -/

private theorem adopt_withLimits (steps : Nat) (found : List ObjectId) :
    (heap.withLimits limits).adopt steps found = (heap.adopt steps found).withLimits limits := by
  induction steps generalizing found heap with
  | zero => rfl
  | succ steps inductionHypothesis =>
      obtain ⟨objects, uses, shapes, stores⟩ := heap
      cases found with
      | nil => rfl
      | cons id rest =>
          simp only [withLimits, adopt]
          exact inductionHypothesis ⟨objects, _, _, stores⟩ _

private theorem dismiss_withLimits (steps : Nat) (lost : List ObjectId) :
    (heap.withLimits limits).dismiss steps lost = (heap.dismiss steps lost).withLimits limits := by
  induction steps generalizing lost heap with
  | zero => rfl
  | succ steps inductionHypothesis =>
      obtain ⟨objects, uses, shapes, stores⟩ := heap
      cases lost with
      | nil => rfl
      | cons id rest =>
          simp only [withLimits, dismiss]
          exact inductionHypothesis ⟨objects, _, _, stores⟩ _

@[simp] theorem holdAll_withLimits (ids : List ObjectId) :
    (heap.withLimits limits).holdAll ids = (heap.holdAll ids).withLimits limits := by
  obtain ⟨objects, uses, shapes, stores⟩ := heap
  simp only [withLimits, holdAll]
  exact adopt_withLimits ⟨objects, _, shapes, stores⟩ limits _ _

@[simp] theorem releaseAll_withLimits (ids : List ObjectId) :
    (heap.withLimits limits).releaseAll ids = (heap.releaseAll ids).withLimits limits := by
  obtain ⟨objects, uses, shapes, stores⟩ := heap
  simp only [withLimits, releaseAll]
  exact dismiss_withLimits ⟨objects, _, shapes, stores⟩ limits _ _

@[simp] theorem holdShape_withLimits (shape : ShapeId) :
    (heap.withLimits limits).holdShape shape = (heap.holdShape shape).withLimits limits := rfl

@[simp] theorem releaseShape_withLimits (shape : ShapeId) :
    (heap.withLimits limits).releaseShape shape =
      (heap.releaseShape shape).withLimits limits := rfl

private theorem foldl_withLimits {α : Type} {step : Heap → α → Heap}
    (commutes : ∀ heap item,
      step (heap.withLimits limits) item = (step heap item).withLimits limits)
    (items : List α) :
    items.foldl step (heap.withLimits limits) = (items.foldl step heap).withLimits limits := by
  induction items generalizing heap with
  | nil => rfl
  | cons item rest inductionHypothesis =>
      rw [List.foldl_cons, List.foldl_cons, commutes, inductionHypothesis]

@[simp] theorem setObject_withLimits (id : ObjectId) (object : Object) :
    (heap.withLimits limits).setObject id object =
      (heap.setObject id object).withLimits limits := by
  have placed : ∀ heap : Heap,
      { heap.withLimits limits with objects := heap.objects.setIfInBounds id object } =
        ({ heap with objects := heap.objects.setIfInBounds id object } : Heap).withLimits
          limits := fun _ => rfl
  have holds := foldl_withLimits (heap.holdAll object.references) limits
    (fun heap shape => holdShape_withLimits heap limits shape) object.storage.shape?.toList
  unfold setObject
  simp only [isInUse_withLimits, object_withLimits, holdAll_withLimits, holds]
  split
  · simp only [objects_withLimits, placed, releaseAll_withLimits]
    exact foldl_withLimits _ limits (fun heap shape => releaseShape_withLimits heap limits shape) _
  · exact placed heap

@[simp] theorem setStorage_withLimits (id : ObjectId) (storage : Storage) :
    (heap.withLimits limits).setStorage id storage =
      (heap.setStorage id storage).withLimits limits :=
  setObject_withLimits _ _ _ _

@[simp] theorem setPrototype_withLimits (id : ObjectId) (prototype : Option ObjectId) :
    (heap.withLimits limits).setPrototype id prototype =
      (heap.setPrototype id prototype).withLimits limits :=
  setObject_withLimits _ _ _ _

@[simp] theorem transition_withLimits (store : StoreId) (shape : ShapeId) (step : Transition) :
    (heap.withLimits limits).transition store shape step =
      ((heap.transition store shape step).1.withLimits limits,
        (heap.transition store shape step).2) := by
  obtain ⟨objects, uses, shapes, stores⟩ := heap
  have stepped : (((Heap.mk objects uses shapes stores).withLimits limits).store store).transition
      shapes shape step =
        (if store < stores.size then
            ((stores.getD store default).transition shapes shape step).1.withLimit (limits store)
          else ((stores.getD store default).transition shapes shape step).1,
          ((stores.getD store default).transition shapes shape step).2) := by
    rw [store_withLimits]
    by_cases inRange : store < stores.size
    · rw [if_pos inRange, if_pos inRange]
      exact ShapeStore.transition_withLimit _ _ _ _ _
    · rw [if_neg inRange, if_neg inRange]
      rfl
  simp only [Heap.store, withLimits] at stepped
  simp only [withLimits, transition, stepped, Array.mapIdx_setIfInBounds, Prod.mk.injEq,
    mk.injEq, true_and, and_true]
  split
  · rfl
  · rename_i outside
    rw [Array.setIfInBounds_eq_of_size_le (by simpa using outside),
      Array.setIfInBounds_eq_of_size_le (by simpa using outside)]

@[simp] theorem writeData_withLimits (id : ObjectId) (key : PropertyKey) (value : Value) :
    (heap.withLimits limits).writeData id key value =
      (heap.writeData id key value).withLimits limits := by
  unfold writeData
  simp only [object_withLimits, layout_withLimits, setStorage_withLimits]
  split <;> split
  · split <;> rfl
  · rfl
  · split <;> rfl
  · rfl

@[simp] theorem addProperty_withLimits (id : ObjectId) (key : PropertyKey)
    (attributes : Attributes) (slot : Slot) :
    (heap.withLimits limits).addProperty id key attributes slot =
      (heap.addProperty id key attributes slot).withLimits limits := by
  unfold addProperty
  simp only [object_withLimits, layout_withLimits, becomesDictionary_withLimits,
    setStorage_withLimits, transition_withLimits]
  split
  · split <;> rfl
  · rfl

@[simp] theorem replaceProperty_withLimits (id : ObjectId) (key : PropertyKey)
    (attributes : Attributes) (slot : Slot) :
    (heap.withLimits limits).replaceProperty id key attributes slot =
      (heap.replaceProperty id key attributes slot).withLimits limits := by
  unfold replaceProperty
  simp only [object_withLimits, layout_withLimits, setStorage_withLimits, transition_withLimits]
  split
  · split <;> rfl
  · rfl

@[simp] theorem removeProperty_withLimits (id : ObjectId) (key : PropertyKey) :
    (heap.withLimits limits).removeProperty id key =
      (heap.removeProperty id key).withLimits limits := by
  unfold removeProperty
  simp only [object_withLimits, layout_withLimits, setStorage_withLimits, transition_withLimits]
  split
  · split <;> rfl
  · rfl

@[simp] theorem preventExtensions_withLimits (id : ObjectId) :
    (heap.withLimits limits).preventExtensions id =
      (heap.preventExtensions id).withLimits limits := by
  unfold preventExtensions
  simp only [object_withLimits, setStorage_withLimits, transition_withLimits]
  split <;> rfl

@[simp] theorem protectProperties_withLimits (id : ObjectId) (level : Integrity) :
    (heap.withLimits limits).protectProperties id level =
      (heap.protectProperties id level).withLimits limits := by
  unfold protectProperties
  simp only [object_withLimits, setStorage_withLimits, transition_withLimits]
  split <;> rfl

@[simp] theorem storeProperty_withLimits (id : ObjectId) (key : PropertyKey)
    (current : Option Descriptor) (attributes : Attributes) (slot : Slot) :
    (heap.withLimits limits).storeProperty id key current attributes slot =
      (heap.storeProperty id key current attributes slot).withLimits limits := by
  cases current with
  | none => exact addProperty_withLimits _ _ _ _ _ _
  | some current =>
      simp only [storeProperty, storeMerged, hasData_withLimits, writeData_withLimits,
        replaceProperty_withLimits]
      split
      · split <;> rfl
      · rfl

/-- A validated definition is none of the limits' business either. -/
theorem validateAndApply_withLimits (target : Option ObjectId) (key : PropertyKey)
    (extensible : Bool) (change : Descriptor) (current : Option Descriptor) :
    (heap.withLimits limits).validateAndApply target key extensible change current =
      ((heap.validateAndApply target key extensible change current).1.withLimits limits,
        (heap.validateAndApply target key extensible change current).2) := by
  simp only [validateAndApply, isCallable_withLimits, storeProperty_withLimits]
  split
  · rfl
  · split
    · rfl
    · split <;> rfl

@[simp] theorem allocate_withLimits (store : StoreId) (kind : ObjectKind)
    (prototype : Option ObjectId) (isLiteral : Bool) :
    (heap.withLimits limits).allocate store kind prototype isLiteral =
      ((heap.allocate store kind prototype isLiteral).1.withLimits limits,
        (heap.allocate store kind prototype isLiteral).2) := by
  simp only [allocate, root_withLimits, hold, objects_withLimits, uses_withLimits,
    shapes_withLimits, Prod.mk.injEq, and_true]
  exact holdAll_withLimits ⟨_, heap.uses.push 0, heap.shapes, heap.stores⟩ limits _

@[simp] theorem describe_withLimits (store : StoreId) (descriptor : Descriptor) :
    (heap.withLimits limits).describe store descriptor =
      ((heap.describe store descriptor).1.withLimits limits,
        (heap.describe store descriptor).2) := by
  simp only [describe, allocate_withLimits]
  exact Prod.ext (foldl_withLimits _ limits (fun _ _ => addProperty_withLimits _ _ _ _ _ _) _) rfl

theorem addStore_withLimits (config : Config) :
    (heap.withLimits limits).addStore config =
      ((heap.addStore config).1.withLimits
          (Function.update limits heap.stores.size config.maxProxyDepth),
        (heap.addStore config).2) := by
  have others : heap.stores.mapIdx (fun id store => store.withLimit
      (Function.update limits heap.stores.size config.maxProxyDepth id)) =
        heap.stores.mapIdx fun id store => store.withLimit (limits id) := by
    refine Array.ext (by simp) fun id inRange inRange' => ?_
    have apart : id ≠ heap.stores.size := by
      rw [Array.size_mapIdx] at inRange
      exact Nat.ne_of_lt inRange
    simp [Function.update_of_ne apart]
  obtain ⟨objects, uses, shapes, stores⟩ := heap
  simp only [withLimits, addStore, Array.mapIdx_push, others, Array.size_mapIdx,
    Function.update_self]
  rfl

theorem setPrototypeOf_withLimits (id : ObjectId) (prototype : Option ObjectId) :
    (heap.withLimits limits).setPrototypeOf id prototype =
      ((heap.setPrototypeOf id prototype).1.withLimits limits,
        (heap.setPrototypeOf id prototype).2) := by
  simp only [setPrototypeOf, prototype_withLimits, isExtensible_withLimits,
    admitsPrototype_withLimits, setPrototype_withLimits]
  split
  · rfl
  · split <;> rfl

theorem deleteOwn_withLimits (id : ObjectId) (key : PropertyKey) :
    (heap.withLimits limits).deleteOwn id key =
      ((heap.deleteOwn id key).1.withLimits limits, (heap.deleteOwn id key).2) := by
  simp only [deleteOwn, lookup_withLimits, removeProperty_withLimits]
  split
  · rfl
  · split <;> rfl

theorem revoke_withLimits (proxy : ObjectId) :
    (heap.withLimits limits).revoke proxy = (heap.revoke proxy).withLimits limits := by
  simp only [revoke, proxy?_withLimits, object_withLimits, setObject_withLimits]
  split <;> rfl

/-- A command that makes no store does the same under all limits. -/
theorem Command.run_withLimits (command : Command)
    (notStore : ∀ config, command ≠ .addStore config) :
    command.run (heap.withLimits limits) =
      ((command.run heap).1.withLimits limits, (command.run heap).2) := by
  cases command with
  | addStore config => exact absurd rfl (notStore config)
  | allocate store kind prototype isLiteral => exact allocate_withLimits _ _ _ _ _ _
  | describe store descriptor => exact describe_withLimits _ _ _ _
  | revoke proxy => exact Prod.ext (revoke_withLimits _ _ _) rfl
  | setPrototypeOf id prototype => exact setPrototypeOf_withLimits _ _ _ _
  | preventExtensions id => exact Prod.ext (preventExtensions_withLimits _ _ _) rfl
  | defineOwn id key change =>
      exact validateAndApply_withLimits heap limits (some id) key _ change _
  | writeData id key value => exact Prod.ext (writeData_withLimits _ _ _ _ _) rfl
  | deleteOwn id key => exact deleteOwn_withLimits _ _ _ _
  | setIntegrity id level =>
      simp only [run, Heap.setIntegrity, protectProperties_withLimits,
        preventExtensions_withLimits]
  | transition store shape step => simp only [run, transition_withLimits, holdShape_withLimits]
  | holdAll ids => exact Prod.ext (holdAll_withLimits _ _ _) rfl
  | releaseAll ids => exact Prod.ext (releaseAll_withLimits _ _ _) rfl
  | holdShape shape => rfl
  | releaseShape shape => rfl

/-! ### Heaps with more room -/

/-- The same heap with other nesting limits, which are smaller by `room` at most. -/
structure Roomier (room : Nat) (left right : Heap) : Prop where
  same : right = left.withLimits right.limit
  limit_le : ∀ store, left.limit store ≤ right.limit store + room

/-- Limits matter for the stores that there are. -/
theorem roomier_withLimits {heap : Heap} {limits : StoreId → Nat} {room : Nat}
    (limit_le : ∀ store, store < heap.stores.size → heap.limit store ≤ limits store + room) :
    heap.Roomier room (heap.withLimits limits) where
  same := by
    have same : heap.stores.mapIdx (fun id store => store.withLimit (limits id)) =
        heap.stores.mapIdx fun id store =>
          store.withLimit ((heap.withLimits limits).limit id) := by
      refine Array.ext (by simp) fun id inRange _ => ?_
      rw [Array.size_mapIdx] at inRange
      simp [limit_withLimits heap limits inRange]
    conv_lhs => rw [withLimits, same]
    rfl
  limit_le := fun store => by
    by_cases inRange : store < heap.stores.size
    · rw [limit_withLimits heap limits inRange]
      exact limit_le store inRange
    · rw [limit, limit, store_withLimits, if_neg inRange]
      exact Nat.le_add_right _ _

namespace Roomier

variable {room : Nat} {left right : Heap}

theorem refl (room : Nat) (heap : Heap) : heap.Roomier room heap where
  same := (heap.withLimits_limit).symm
  limit_le := fun _ => Nat.le_add_right _ _

/-- A step that leaves limits alone has the same result in the heap with more room. -/
theorem step {α : Type} (roomier : left.Roomier room right) (step : Heap → Heap × α)
    (commutes : ∀ heap limits,
      step (heap.withLimits limits) = ((step heap).1.withLimits limits, (step heap).2)) :
    (step right).2 = (step left).2 ∧ (step left).1.Roomier room (step right).1 := by
  have stepped := commutes left right.limit
  rw [← roomier.same] at stepped
  rw [stepped]
  refine ⟨rfl, roomier_withLimits fun store inRange => ?_⟩
  -- the limits are those from before
  have kept : (step left).1 = (step left).1.withLimits left.limit := by
    have own := congrArg Prod.fst (commutes left left.limit)
    rwa [withLimits_limit] at own
  rw [kept, limit_withLimits _ _ inRange]
  exact roomier.limit_le store

theorem command (roomier : left.Roomier room right) (command : Command) :
    (command.run right).2 = (command.run left).2 ∧
      (command.run left).1.Roomier room (command.run right).1 := by
  by_cases isStore : ∃ config, command = .addStore config
  · obtain ⟨config, rfl⟩ := isStore
    have added := addStore_withLimits left right.limit config
    rw [← roomier.same] at added
    simp only [Command.run, added]
    refine ⟨trivial, roomier_withLimits fun store _ => ?_⟩
    rw [limit, store_addStore]
    split
    · rename_i isNew
      rw [isNew, Function.update_self]
      exact Nat.le_add_right _ _
    · rename_i isOld
      rw [Function.update_of_ne isOld]
      exact roomier.limit_le store
  · exact roomier.step command.run fun heap limits =>
      command.run_withLimits heap limits fun config same => isStore ⟨config, same⟩

/-- Internal methods see the same. -/
theorem resembles (roomier : left.Roomier room right) (levels : Integrity → Prop) :
    left.Resembles levels right := by
  rw [roomier.same]
  generalize right.limit = limits
  exact {
    size_eq := rfl
    store_eq := fun _ => rfl
    kind_eq := fun _ => rfl
    prototype_eq := fun _ => rfl
    lookup_eq := fun _ _ => rfl
    hasData_eq := fun _ _ => rfl
    isExtensible_eq := fun _ => rfl
    ownKeys_eq := fun id => congrFun (ownKeys_withLimits left limits) id
    testIntegrity_eq := fun _ _ _ => rfl }

/-- The proxy has the room that it had. -/
theorem maxProxyDepth_le (roomier : left.Roomier room right) (id : ObjectId) :
    (left.config id).maxProxyDepth ≤ (right.config id).maxProxyDepth + room := by
  have sameObject : right.object id = left.object id := by
    rw [roomier.same]
    rfl
  rw [config, config, sameObject]
  exact roomier.limit_le _

end Roomier

end Heap

end ObjectModel
