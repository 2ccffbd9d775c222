import ObjectModel.Heap.Liveness
import ObjectModel.Proofs.Shape.Graph

/-!
Contract: counting uses changes no object, no layout and no store.

`Heap.SameContent` relates two heaps that differ in their counts only. Every hold and
every release keeps the content of a heap, so a replaced object is all that
`Heap.setObject` changes. Where the objects were in use before, a hold that is given up
again leaves the counts as well (`Heap.releaseAll_holdAll`).

Does not own: what the counts themselves mean.
-/

namespace ObjectModel.Heap

/-- The heaps differ at most in how often objects and shapes are used. -/
structure SameContent (after before : Heap) : Prop where
  objects_eq : after.objects = before.objects
  shapes_eq : after.shapes.shapes = before.shapes.shapes
  stores_eq : after.stores = before.stores

namespace SameContent

theorem refl (heap : Heap) : heap.SameContent heap := ⟨rfl, rfl, rfl⟩

theorem trans {first second third : Heap} (later : third.SameContent second)
    (earlier : second.SameContent first) : third.SameContent first where
  objects_eq := later.objects_eq.trans earlier.objects_eq
  shapes_eq := later.shapes_eq.trans earlier.shapes_eq
  stores_eq := later.stores_eq.trans earlier.stores_eq

theorem object_eq {after before : Heap} (same : after.SameContent before)
    (id : ObjectId) : after.object id = before.object id := by
  rw [object, object, same.objects_eq]

theorem kind_eq {after before : Heap} (same : after.SameContent before)
    (id : ObjectId) : after.kind id = before.kind id := by
  rw [kind, same.object_eq, kind]

theorem prototype_eq {after before : Heap} (same : after.SameContent before)
    (id : ObjectId) : after.prototype id = before.prototype id := by
  rw [prototype, same.object_eq, prototype]

theorem store_eq {after before : Heap} (same : after.SameContent before)
    (id : StoreId) : after.store id = before.store id := by
  rw [store, store, same.stores_eq]

end SameContent

/-! ### Holds and releases -/

private theorem shapes_foldl {step : ShapeGraph → ShapeId → ShapeGraph}
    (keeps : ∀ graph id, (step graph id).shapes = graph.shapes) (ids : List ShapeId)
    (graph : ShapeGraph) : (ids.foldl step graph).shapes = graph.shapes := by
  induction ids generalizing graph with
  | nil => rfl
  | cons id rest inductionHypothesis =>
      rw [List.foldl_cons, inductionHypothesis, keeps]

private theorem sameContent_adopt (steps : Nat) (found : List ObjectId) (heap : Heap) :
    (adopt steps found heap).SameContent heap := by
  induction steps generalizing found heap with
  | zero => exact .refl heap
  | succ steps inductionHypothesis =>
      cases found with
      | nil => exact .refl heap
      | cons id rest =>
          refine (inductionHypothesis _ _).trans ⟨rfl, ?_, rfl⟩
          exact shapes_foldl ShapeGraph.shapes_retain _ _

private theorem sameContent_dismiss (steps : Nat) (lost : List ObjectId) (heap : Heap) :
    (dismiss steps lost heap).SameContent heap := by
  induction steps generalizing lost heap with
  | zero => exact .refl heap
  | succ steps inductionHypothesis =>
      cases lost with
      | nil => exact .refl heap
      | cons id rest =>
          refine (inductionHypothesis _ _).trans ⟨rfl, ?_, rfl⟩
          exact shapes_foldl ShapeGraph.shapes_release _ _

theorem sameContent_holdAll (heap : Heap) (ids : List ObjectId) :
    (heap.holdAll ids).SameContent heap :=
  (sameContent_adopt _ _ _).trans ⟨rfl, rfl, rfl⟩

theorem sameContent_releaseAll (heap : Heap) (ids : List ObjectId) :
    (heap.releaseAll ids).SameContent heap :=
  (sameContent_dismiss _ _ _).trans ⟨rfl, rfl, rfl⟩

theorem sameContent_hold (heap : Heap) (id : ObjectId) : (heap.hold id).SameContent heap :=
  sameContent_holdAll heap [id]

theorem sameContent_holdShape (heap : Heap) (shape : ShapeId) :
    (heap.holdShape shape).SameContent heap :=
  ⟨rfl, ShapeGraph.shapes_retain _ _, rfl⟩

theorem sameContent_releaseShape (heap : Heap) (shape : ShapeId) :
    (heap.releaseShape shape).SameContent heap :=
  ⟨rfl, ShapeGraph.shapes_release _ _, rfl⟩

private theorem sameContent_foldl {step : Heap → ShapeId → Heap}
    (keeps : ∀ heap shape, (step heap shape).SameContent heap) (shapes : List ShapeId)
    (heap : Heap) : (shapes.foldl step heap).SameContent heap := by
  induction shapes generalizing heap with
  | nil => exact .refl heap
  | cons shape rest inductionHypothesis =>
      exact (inductionHypothesis _).trans (keeps heap shape)

/-! ### Uses that are given up again -/

private theorem getElem?_addUses (ids found : List ObjectId) (uses : Array Nat) (id : ObjectId) :
    (addUses ids found uses).2[id]? = uses[id]?.map (· + ids.count id) := by
  induction ids generalizing found uses with
  | nil => simp [addUses]
  | cons first rest inductionHypothesis =>
      rw [addUses, inductionHypothesis, Array.getElem?_modify, List.count_cons]
      by_cases same : first = id
      · simp [same, Function.comp_def, Nat.add_right_comm _ 1, Nat.add_assoc]
      · simp [same]

private theorem getElem?_dropUses (ids lost : List ObjectId) (uses : Array Nat) (id : ObjectId) :
    (dropUses ids lost uses).2[id]? = uses[id]?.map (· - ids.count id) := by
  induction ids generalizing lost uses with
  | nil => simp [dropUses]
  | cons first rest inductionHypothesis =>
      rw [dropUses, inductionHypothesis, Array.getElem?_modify, List.count_cons]
      by_cases same : first = id
      · simp [same, Function.comp_def, Nat.sub_right_comm _ 1, Nat.sub_sub]
      · simp [same]

private theorem getD_modify (uses : Array Nat) (id other : ObjectId) {change : Nat → Nat} :
    (uses.modify id change).getD other 0 =
      if id = other ∧ other < uses.size then change (uses.getD other 0)
      else uses.getD other 0 := by
  simp only [Array.getD_eq_getD_getElem?, Array.getElem?_modify]
  by_cases same : id = other <;> by_cases inRange : other < uses.size <;>
    simp [same, inRange]

/-- Objects in use do not come into use. -/
private theorem addUses_inUse {ids : List ObjectId} (found : List ObjectId) {uses : Array Nat}
    (inUse : ∀ id ∈ ids, uses.getD id 0 ≠ 0) : (addUses ids found uses).1 = found := by
  induction ids generalizing uses with
  | nil => rfl
  | cons first rest inductionHypothesis =>
      rw [addUses, if_neg (inUse first List.mem_cons_self)]
      refine inductionHypothesis fun id member => ?_
      have stillInUse := inUse id (List.mem_cons_of_mem first member)
      rw [getD_modify]
      split <;> omega

/-- Objects that are used more often stay in use. -/
private theorem dropUses_inUse {ids : List ObjectId} (lost : List ObjectId) {uses : Array Nat}
    (usedMore : ∀ id ∈ ids, ids.count id < uses.getD id 0) :
    (dropUses ids lost uses).1 = lost := by
  induction ids generalizing uses with
  | nil => rfl
  | cons first rest inductionHypothesis =>
      have firstUsed := usedMore first List.mem_cons_self
      rw [List.count_cons_self] at firstUsed
      rw [dropUses, if_neg (by omega)]
      refine inductionHypothesis fun id member => ?_
      have isUsed := usedMore id (List.mem_cons_of_mem first member)
      rw [List.count_cons] at isUsed
      rw [getD_modify]
      by_cases same : first = id
      · rw [if_pos (beq_iff_eq.mpr same)] at isUsed
        split <;> omega
      · rw [if_neg fun both => same both.1]
        omega

private theorem adopt_nil (steps : Nat) (heap : Heap) : adopt steps [] heap = heap := by
  cases steps <;> rfl

private theorem dismiss_nil (steps : Nat) (heap : Heap) : dismiss steps [] heap = heap := by
  cases steps <;> rfl

/-- Objects that are in use already may be held for a while without a trace. -/
theorem releaseAll_holdAll {heap : Heap} {ids : List ObjectId}
    (inUse : ∀ id ∈ ids, heap.isInUse id = true) : (heap.holdAll ids).releaseAll ids = heap := by
  obtain ⟨objects, uses, shapes, stores⟩ := heap
  have used : ∀ id ∈ ids, uses.getD id 0 ≠ 0 := fun id member => by
    simpa [isInUse] using inUse id member
  have held : (addUses ids [] uses).1 = [] := addUses_inUse [] used
  have usedMore : ∀ id ∈ ids, ids.count id < (addUses ids [] uses).2.getD id 0 := by
    intro id member
    have isUsed := used id member
    rw [Array.getD_eq_getD_getElem?] at isUsed ⊢
    rw [getElem?_addUses]
    cases found : uses[id]? with
    | none => simp [found] at isUsed
    | some count =>
        simp only [found, Option.getD_some, Option.map_some] at isUsed ⊢
        omega
  have released := dropUses_inUse [] usedMore
  have restored : (dropUses ids [] (addUses ids [] uses).2).2 = uses := by
    refine Array.ext_getElem? fun id => ?_
    rw [getElem?_dropUses, getElem?_addUses, Option.map_map]
    cases uses[id]? <;> simp
  simp only [holdAll, held, adopt_nil, releaseAll, released, dismiss_nil, restored]

/-! ### A replaced object -/

/-- Beside the counts, the object is all that changes. -/
theorem sameContent_setObject (heap : Heap) (id : ObjectId) (object : Object) :
    (heap.setObject id object).SameContent
      { heap with objects := heap.objects.setIfInBounds id object } := by
  unfold setObject
  by_cases counts : heap.isInUse id = true
  · simp only [counts, if_true]
    have held := (sameContent_foldl sameContent_holdShape object.storage.shape?.toList
      (heap.holdAll object.references)).trans (sameContent_holdAll heap object.references)
    refine (sameContent_foldl sameContent_releaseShape _ _).trans
      ((sameContent_releaseAll _ _).trans ⟨?_, held.shapes_eq, held.stores_eq⟩)
    exact congrArg (·.setIfInBounds id object) held.objects_eq
  · simp only [counts]
    exact .refl _

/-- A position where no object is. -/
theorem object_outside {heap : Heap} {id : ObjectId} (outside : heap.objects.size ≤ id) :
    heap.object id = default := by
  rw [object, Array.getD_eq_getD_getElem?, Array.getElem?_eq_none outside]
  rfl

theorem size_setObject (heap : Heap) (id : ObjectId) (object : Object) :
    (heap.setObject id object).objects.size = heap.objects.size := by
  rw [(sameContent_setObject heap id object).objects_eq]
  simp

theorem object_setObject {heap : Heap} {id : ObjectId} (inRange : id < heap.objects.size)
    (object : Object) : (heap.setObject id object).object id = object := by
  rw [(sameContent_setObject heap id object).object_eq]
  simp [Heap.object, inRange]

/-- An object that may change exists and is the one that is changed. -/
theorem changed_or_apart (heap : Heap) (id other : ObjectId) :
    (other = id ∧ id < heap.objects.size) ∨ (other ≠ id ∨ heap.objects.size ≤ other) := by
  by_cases same : other = id
  · subst same
    exact (Nat.lt_or_ge other heap.objects.size).imp (⟨rfl, ·⟩) .inr
  · exact .inr (.inl same)

theorem object_setObject_other (heap : Heap) {id other : ObjectId} (object : Object)
    (apart : other ≠ id ∨ heap.objects.size ≤ other) :
    (heap.setObject id object).object other = heap.object other := by
  rw [(sameContent_setObject heap id object).object_eq]
  simp only [Heap.object, Array.getD_eq_getD_getElem?, Array.getElem?_setIfInBounds]
  split
  · rename_i same
    subst same
    rcases apart with different | outside
    · contradiction
    · simp [Nat.not_lt.mpr outside]
  · rfl

end ObjectModel.Heap
