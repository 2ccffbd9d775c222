import ObjectModel.Proofs.Heap.Store

/-!
Contract: objects of one heap are independent property maps.

A `StoreStep` makes a store or an object, or performs one raw operation on one object;
steps may come in any order and on any number of objects that share shapes. The same
steps run on a list of property maps, one for each object, which knows nothing of shapes
and dictionaries. Both runs give the same answers and end with the same properties.

Steps are legal if they are on objects that exist and add a property only where there is
none; this is all that the callers of the raw operations have to see to.
-/

namespace ObjectModel

/-- The raw operations on one object. -/
inductive StoreOperation where
  | lookup (key : PropertyKey)
  | write (key : PropertyKey) (value : Value)
  | add (key : PropertyKey) (attributes : Attributes) (slot : Slot)
  | replace (key : PropertyKey) (attributes : Attributes) (slot : Slot)
  | remove (key : PropertyKey)
  | preventExtensions
  | sealProperties
  | keys
  | count
  | isExtensible

inductive StoreAnswer where
  | nothing
  | property (found : Option (Attributes × Slot))
  | flag (value : Bool)
  | keys (listed : List PropertyKey)
  | count (number : Nat)
deriving DecidableEq

inductive StoreStep where
  | newStore (config : Config)
  | newObject (store : StoreId) (kind : ObjectKind) (prototype : Option ObjectId)
      (isLiteral : Bool)
  | on (id : ObjectId) (operation : StoreOperation)

/-! ### What a step does to a heap -/

/-- An operation on an object. A write says whether there was a data property, and a
replacement or removal whether there was a property. -/
def StoreOperation.perform (heap : Heap) (id : ObjectId) :
    StoreOperation → Heap × StoreAnswer
  | .lookup key => (heap, .property (heap.lookup id key))
  | .write key value => (heap.writeData id key value, .flag (heap.hasData id key))
  | .add key attributes slot => (heap.addProperty id key attributes slot, .nothing)
  | .replace key attributes slot =>
      (heap.replaceProperty id key attributes slot, .flag (heap.lookup id key).isSome)
  | .remove key => (heap.removeProperty id key, .flag (heap.lookup id key).isSome)
  | .preventExtensions => (heap.preventExtensions id, .nothing)
  | .sealProperties => (heap.protectProperties id .sealed, .nothing)
  | .keys => (heap, .keys (heap.keys id))
  | .count => (heap, .count (heap.propertyCount id))
  | .isExtensible => (heap, .flag (heap.isExtensible id))

def StoreStep.perform (heap : Heap) : StoreStep → Heap × StoreAnswer
  | .newStore config => ((heap.addStore config).1, .nothing)
  | .newObject store kind prototype isLiteral =>
      ((heap.allocate store kind prototype isLiteral).1, .nothing)
  | .on id operation => operation.perform heap id

/-- The steps in turn: the heap they end with, and their answers. -/
def StoreStep.performAll (heap : Heap) : List StoreStep → Heap × List StoreAnswer
  | [] => (heap, [])
  | step :: rest =>
      let (next, answer) := step.perform heap
      let (final, answers) := performAll next rest
      (final, answer :: answers)

/-! ### What a step does to property maps -/

def StoreOperation.apply (map : PropertyMap) : StoreOperation → PropertyMap × StoreAnswer
  | .lookup key => (map, .property (map.find? key))
  | .write key value => (map.write key value, .flag (map.hasData key))
  | .add key attributes slot => (map.add key attributes slot, .nothing)
  | .replace key attributes slot =>
      (map.replace key attributes slot, .flag (map.find? key).isSome)
  | .remove key => (map.remove key, .flag (map.find? key).isSome)
  | .preventExtensions => (map.close, .nothing)
  | .sealProperties => (map.protect .sealed, .nothing)
  | .keys => (map, .keys map.keys)
  | .count => (map, .count map.count)
  | .isExtensible => (map, .flag map.extensible)

def StoreStep.apply (maps : List PropertyMap) : StoreStep → List PropertyMap × StoreAnswer
  | .newStore _ => (maps, .nothing)
  | .newObject _ _ _ _ => (maps ++ [.empty], .nothing)
  | .on id operation =>
      let (map, answer) := operation.apply (maps.getD id .empty)
      (maps.set id map, answer)

def StoreStep.applyAll (maps : List PropertyMap) :
    List StoreStep → List PropertyMap × List StoreAnswer
  | [] => (maps, [])
  | step :: rest =>
      let (next, answer) := step.apply maps
      let (final, answers) := applyAll next rest
      (final, answer :: answers)

/-- A property is added only where there is none. -/
def StoreOperation.isLegal (map : PropertyMap) : StoreOperation → Bool
  | .add key _ _ => key ∉ map.keys
  | _ => true

/-- An operation is on an object that exists. -/
def StoreStep.isLegal (maps : List PropertyMap) : StoreStep → Bool
  | .on id operation => maps[id]?.any operation.isLegal
  | _ => true

def StoreStep.allLegal (maps : List PropertyMap) : List StoreStep → Bool
  | [] => true
  | step :: rest => step.isLegal maps && allLegal (step.apply maps).1 rest

/-! ### Agreement -/

/-- A well-formed heap holds exactly these properties, object by object. -/
structure Heap.Holds (heap : Heap) (maps : List PropertyMap) : Prop where
  wellFormed : heap.WellFormed
  maps_eq : maps = (List.range heap.objects.size).map heap.view

namespace Heap.Holds

variable {heap : Heap} {maps : List PropertyMap} (holds : heap.Holds maps)

include holds

theorem getElem?_maps {id : ObjectId} {map : PropertyMap} (found : maps[id]? = some map) :
    id < heap.objects.size ∧ map = heap.view id := by
  rw [holds.maps_eq, List.getElem?_map, Option.map_eq_some_iff] at found
  obtain ⟨position, isPosition, rfl⟩ := found
  obtain ⟨inRange, content⟩ := List.getElem?_eq_some_iff.mp isPosition
  rw [List.getElem_range] at content
  subst content
  exact ⟨by simpa using inRange, rfl⟩

/-- An update of one object is an update of its map. -/
theorem updates {id : ObjectId} {map : PropertyMap} {after : Heap}
    (change : heap.Updates id map after) : after.Holds (maps.set id map) := by
  refine ⟨change.wellFormed, ?_⟩
  rw [holds.maps_eq, change.size_eq]
  apply List.ext_getElem (by simp)
  intro position setRange mapRange
  rw [List.getElem_set]
  simp only [List.length_map, List.length_range] at mapRange
  split
  · rename_i same
    subst same
    simpa using (change.view_eq mapRange).symm
  · rename_i different
    simpa using (change.view_other holds.wellFormed (Ne.symm different)).symm

end Heap.Holds

theorem StoreOperation.perform_agrees {heap : Heap} (wellFormed : heap.WellFormed)
    (id : ObjectId) (operation : StoreOperation)
    (legal : operation.isLegal (heap.view id) = true) :
    (operation.perform heap id).2 = (operation.apply (heap.view id)).2 ∧
      heap.Updates id (operation.apply (heap.view id)).1 (operation.perform heap id).1 := by
  have lookup_eq := wellFormed.lookup_eq id
  cases operation with
  | lookup key => exact ⟨congrArg _ (lookup_eq key), .refl wellFormed rfl⟩
  | write key value =>
      exact ⟨congrArg _ (wellFormed.hasData_eq id key), wellFormed.updates_writeData id key value⟩
  | add key attributes slot =>
      have absent : key ∉ (heap.view id).keys := by simpa [isLegal] using legal
      exact ⟨rfl, wellFormed.updates_addProperty id absent attributes slot⟩
  | replace key attributes slot =>
      exact ⟨congrArg (StoreAnswer.flag ∘ Option.isSome) (lookup_eq key),
        wellFormed.updates_replaceProperty id key attributes slot⟩
  | remove key =>
      exact ⟨congrArg (StoreAnswer.flag ∘ Option.isSome) (lookup_eq key),
        wellFormed.updates_removeProperty id key⟩
  | preventExtensions => exact ⟨rfl, wellFormed.updates_preventExtensions id⟩
  | sealProperties => exact ⟨rfl, wellFormed.updates_protectProperties id .sealed⟩
  | keys => exact ⟨congrArg _ (wellFormed.keys_eq id), .refl wellFormed rfl⟩
  | count => exact ⟨congrArg _ (wellFormed.propertyCount_eq id), .refl wellFormed rfl⟩
  | isExtensible => exact ⟨congrArg _ (Heap.isExtensible_eq id heap), .refl wellFormed rfl⟩

theorem StoreStep.perform_agrees {heap : Heap} {maps : List PropertyMap}
    (holds : heap.Holds maps) (step : StoreStep) (legal : step.isLegal maps = true) :
    (step.perform heap).2 = (step.apply maps).2 ∧
      (step.perform heap).1.Holds (step.apply maps).1 := by
  cases step with
  | newStore config =>
      refine ⟨rfl, holds.wellFormed.addStore config, ?_⟩
      rw [StoreStep.apply, holds.maps_eq]
      apply List.map_congr_left
      intro id _
      exact (holds.wellFormed.view_addStore config id).symm
  | newObject store kind prototype isLiteral =>
      refine ⟨rfl, holds.wellFormed.allocate store kind prototype isLiteral, ?_⟩
      simp only [StoreStep.perform, StoreStep.apply, holds.maps_eq, Heap.size_allocate,
        List.range_succ, List.map_append, List.map_cons, List.map_nil,
        holds.wellFormed.view_allocate, if_true]
      congr 1
      apply List.map_congr_left
      intro id member
      rw [holds.wellFormed.view_allocate, if_neg (Nat.ne_of_lt (List.mem_range.mp member))]
  | on id operation =>
      obtain ⟨map, found, operationLegal⟩ := (Option.any_eq_true _ _).mp legal
      obtain ⟨inRange, rfl⟩ := holds.getElem?_maps found
      obtain ⟨answer, change⟩ :=
        operation.perform_agrees holds.wellFormed id operationLegal
      have map_eq : maps.getD id .empty = heap.view id := by
        rw [List.getD_eq_getElem?_getD, found]
        rfl
      simp only [StoreStep.perform, StoreStep.apply, map_eq]
      exact ⟨answer, holds.updates change⟩

/-- Steps that are legal on the maps give the same answers on the heap, and leave it
holding the maps that they leave. -/
theorem StoreStep.performAll_agrees {heap : Heap} {maps : List PropertyMap}
    (holds : heap.Holds maps) (steps : List StoreStep) (legal : allLegal maps steps = true) :
    (performAll heap steps).2 = (applyAll maps steps).2 ∧
      (performAll heap steps).1.Holds (applyAll maps steps).1 := by
  induction steps generalizing heap maps with
  | nil => exact ⟨rfl, holds⟩
  | cons step rest inductionHypothesis =>
      rw [allLegal, Bool.and_eq_true] at legal
      obtain ⟨answer, next⟩ := step.perform_agrees holds legal.1
      obtain ⟨answers, final⟩ := inductionHypothesis next legal.2
      simp only [performAll, applyAll]
      exact ⟨by rw [answer, answers], final⟩

/-! ### Every run from one store -/

/-- Each property has the slot of its own position, which exists and is of its kind, and
there are no other slots. -/
structure Layout.Numbers (layout : Layout) (slots : List Slot) : Prop where
  length_eq : slots.length = layout.count
  slotCount_eq : layout.slotCount = layout.count
  slot_eq : ∀ (position : Nat) (property : Property),
    layout.properties[position]? = some property → property.slot = position
  kind_eq : ∀ property ∈ layout.properties, ∃ slot,
    slots[property.slot]? = some slot ∧ slot.kind = property.kind

theorem Layout.WellFormed.numbers {layout : Layout} (wellFormed : layout.WellFormed)
    {slots : List Slot} (fits : layout.Fits slots) : layout.Numbers slots where
  length_eq := fits.length_eq
  slotCount_eq := wellFormed.slotCount_eq
  slot_eq := by
    intro position property found
    obtain ⟨inRange, content⟩ := List.getElem?_eq_some_iff.mp found
    rw [← content]
    exact wellFormed.slot_getElem position inRange
  kind_eq := by
    intro property member
    have inRange : property.slot < slots.length := by
      rw [fits.length_eq]
      exact wellFormed.slot_lt member
    refine ⟨slots[property.slot], List.getElem?_eq_getElem inRange, ?_⟩
    have kind := fits.kind_eq property member
    rwa [List.getD_eq_getElem?_getD, List.getElem?_eq_getElem inRange] at kind

/-- Whatever legal steps are taken from a heap with one store, the answers are those of
the maps, every object holds its map, and the slots of every object on a shape are
numbered by that shape, so that they are never missed. Leaving the shape for a dictionary
would change no map. -/
theorem StoreStep.performAll_start (config : Config) (steps : List StoreStep)
    (legal : allLegal [] steps = true) :
    (performAll (.start config) steps).2 = (applyAll [] steps).2 ∧
      (performAll (.start config) steps).1.Holds (applyAll [] steps).1 ∧
      (∀ id, (performAll (.start config) steps).1.keysOrdered id = true →
        inEnumerationOrder ((performAll (.start config) steps).1.view id).keys = true) ∧
      ∀ id shape slots,
        ((performAll (.start config) steps).1.object id).storage = .shaped shape slots →
          ((performAll (.start config) steps).1.layout shape).Numbers slots ∧
            (Dictionary.ofLayout ((performAll (.start config) steps).1.layout shape)
              slots).view = (performAll (.start config) steps).1.view id := by
  have holds : (Heap.start config).Holds [] := ⟨Heap.wellFormed_start config, rfl⟩
  obtain ⟨answers, reached⟩ := performAll_agrees holds steps legal
  refine ⟨answers, reached, ?_, ?_⟩
  · intro id ordered
    rw [reached.wellFormed.keysOrdered_eq, Bool.and_eq_true] at ordered
    exact ordered.2
  · intro id shape slots storage
    have stored := reached.wellFormed.storage id
    rw [storage] at stored
    obtain ⟨-, layout, fits⟩ := stored
    refine ⟨layout.numbers fits, ?_⟩
    rw [Heap.view, storage]
    exact (Dictionary.ofLayout_spec layout slots).2

/-- Two objects with the same history on one store: the literal one leaves its shape for a
dictionary at its second property, and both forget the first one. -/
theorem performAll_start_two_objects :
    let first := PropertyKey.symbol ⟨0, none⟩
    let second := PropertyKey.symbol ⟨1, none⟩
    let build := fun id => [
      StoreStep.on id (.add first .assigned (.data .null)),
      .on id (.add second .assigned (.data (.boolean true))),
      .on id (.remove first),
      .on id (.write first .undefined),
      .on id (.lookup second)]
    (StoreStep.performAll (.start { dictionaryThreshold := 1 })
      ([.newObject 0 .ordinary none true, .newObject 0 .ordinary none false] ++
        build 0 ++ build 1)).2 =
      let answers := [.nothing, .nothing, .flag true, .flag false,
        .property (some (.assigned, .data (.boolean true)))]
      [.nothing, .nothing] ++ answers ++ answers :=
  (StoreStep.performAll_start _ _ (by decide)).1.trans (by decide)

end ObjectModel
