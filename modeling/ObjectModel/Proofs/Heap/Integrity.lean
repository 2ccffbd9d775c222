import ObjectModel.Machine.Run
import ObjectModel.Proofs.Heap.Command
import ObjectModel.Proofs.Heap.Unchanged

/-!
Contract: what sealing and freezing do to an ordinary object.

Both always succeed. Sealing does what it says, and so does freezing, but for one case: an
object whose layout has a frozen flag keeps the writable attributes that it has. The flag
is set too early when a property of a sealed object becomes read-only while another one is
writable still.

Owns: the condition under which freezing misses a property (`Heap.MissesFreeze`), and that
protecting an object twice is protecting it once.
-/

namespace ObjectModel

/-! ### Protecting twice -/

theorem Attributes.protect_protect (attributes : Attributes) (level : Integrity)
    (kind : PropertyKind) :
    (attributes.protect level kind).protect level kind = attributes.protect level kind := by
  cases level <;> cases kind <;> rfl

theorem Dictionary.protect_again (table : Dictionary) (level : Integrity) :
    ((table.protect level).preventExtensions.protect level).preventExtensions =
      (table.protect level).preventExtensions := by
  simp only [protect, preventExtensions, List.map_map, Dictionary.mk.injEq, and_true]
  apply List.map_congr_left
  intro placed _
  simp [Attributes.protect_protect]

/-- A protected layout that is closed has nothing left to do. -/
theorem Layout.isUnchangedBy_protect (layout : Layout) (level : Integrity) :
    ((layout.after (.protect level)).after .preventExtensions).isUnchangedBy
        (.protect level) = true ∧
      ((layout.after (.protect level)).after .preventExtensions).isUnchangedBy
        .preventExtensions = true := by
  have flagged : (layout.after (.protect level)).isUnchangedBy (.protect level) = true := by
    unfold after
    split
    · assumption
    · cases level <;> rfl
  have closed : ∀ layout : Layout,
      (layout.after .preventExtensions).isUnchangedBy .preventExtensions = true := by
    intro layout
    unfold after
    split
    · assumption
    · rfl
  refine ⟨?_, closed _⟩
  rw [after]
  split
  · exact flagged
  · cases level <;> exact flagged

namespace Heap

theorem storage_setStorage {heap : Heap} {id : ObjectId} (inRange : id < heap.objects.size)
    (storage : Storage) : ((heap.setStorage id storage).object id).storage = storage := by
  rw [setStorage, object_setObject inRange]

theorem layout_setStorage (heap : Heap) (id : ObjectId) (storage : Storage)
    (shape : ShapeId) : (heap.setStorage id storage).layout shape = heap.layout shape :=
  ShapeGraph.layout_congr (sameContent_setObject heap id _).shapes_eq shape

/-- A step of the shape of an object leads to the layout after the step. -/
private theorem storage_transition {heap : Heap} (wellFormed : heap.WellFormed)
    {id : ObjectId} (inRange : id < heap.objects.size) (storeId : StoreId) {shape : ShapeId}
    {slots : List Slot} (storage : (heap.object id).storage = .shaped shape slots)
    (step : Transition) :
    let target := (heap.transition storeId shape step).2
    let stepped := (heap.transition storeId shape step).1.setStorage id (.shaped target slots)
    (stepped.object id).storage = .shaped target slots ∧
      stepped.layout target = (heap.layout shape).after step := by
  have stored := wellFormed.storage id
  rw [storage] at stored
  have grownRange : id < (heap.transition storeId shape step).1.objects.size := by
    rwa [(wellFormed.transition_keeps storeId shape step).2.2]
  refine ⟨storage_setStorage grownRange _, ?_⟩
  rw [layout_setStorage]
  exact ((heap.store storeId).transition_target wellFormed.faithful shape step stored.1).2

private theorem shaped_protectProperties {heap : Heap} (wellFormed : heap.WellFormed)
    {id : ObjectId} (inRange : id < heap.objects.size) {shape : ShapeId} {slots : List Slot}
    (storage : (heap.object id).storage = .shaped shape slots) (level : Integrity) :
    ∃ target, ((heap.protectProperties id level).object id).storage = .shaped target slots ∧
      (heap.protectProperties id level).layout target =
        (heap.layout shape).after (.protect level) := by
  simp only [protectProperties, storage]
  exact ⟨_, storage_transition wellFormed inRange _ storage (.protect level)⟩

private theorem shaped_preventExtensions {heap : Heap} (wellFormed : heap.WellFormed)
    {id : ObjectId} (inRange : id < heap.objects.size) {shape : ShapeId} {slots : List Slot}
    (storage : (heap.object id).storage = .shaped shape slots) :
    ∃ target, ((heap.preventExtensions id).object id).storage = .shaped target slots ∧
      (heap.preventExtensions id).layout target =
        (heap.layout shape).after .preventExtensions := by
  simp only [preventExtensions, storage]
  exact ⟨_, storage_transition wellFormed inRange _ storage .preventExtensions⟩

private theorem dictionary_setIntegrity {heap : Heap} (wellFormed : heap.WellFormed)
    {id : ObjectId} (inRange : id < heap.objects.size) {table : Dictionary}
    (storage : (heap.object id).storage = .dictionary table) (level : Integrity) :
    ((heap.setIntegrity id level).object id).storage =
      .dictionary (table.protect level).preventExtensions := by
  have stillInRange : id < (heap.protectProperties id level).objects.size := by
    rwa [(wellFormed.updates_protectProperties id level).size_eq]
  have middleStorage : ((heap.protectProperties id level).object id).storage =
      .dictionary (table.protect level) := by
    simp only [protectProperties, storage]
    exact storage_setStorage inRange _
  rw [setIntegrity]
  simp only [preventExtensions, middleStorage]
  exact storage_setStorage stillInRange _

/-- What an object is stored in once it is protected. -/
private theorem storage_setIntegrity {heap : Heap} (wellFormed : heap.WellFormed)
    {id : ObjectId} (inRange : id < heap.objects.size) (level : Integrity) :
    (∃ table : Dictionary, ((heap.setIntegrity id level).object id).storage =
        .dictionary (table.protect level).preventExtensions) ∨
      ∃ shape slots, ∃ layout : Layout,
        ((heap.setIntegrity id level).object id).storage = .shaped shape slots ∧
          (heap.setIntegrity id level).layout shape =
            (layout.after (.protect level)).after .preventExtensions := by
  have first := wellFormed.updates_protectProperties id level
  have stillInRange : id < (heap.protectProperties id level).objects.size := by
    rwa [first.size_eq]
  cases storage : (heap.object id).storage with
  | shaped shape slots =>
      obtain ⟨middle, middleStorage, middleLayout⟩ :=
        shaped_protectProperties wellFormed inRange storage level
      obtain ⟨target, targetStorage, targetLayout⟩ :=
        shaped_preventExtensions first.wellFormed stillInRange middleStorage
      rw [middleLayout] at targetLayout
      exact .inr ⟨target, slots, heap.layout shape, targetStorage, targetLayout⟩
  | dictionary table =>
      exact .inl ⟨table, dictionary_setIntegrity wellFormed inRange storage level⟩

/-- An object whose layout takes no notice of a level is left as it is. -/
private theorem sameContent_setIntegrity {heap : Heap} {id : ObjectId} {shape : ShapeId}
    {slots : List Slot} (storage : (heap.object id).storage = .shaped shape slots)
    {level : Integrity}
    (isProtected : (heap.layout shape).isUnchangedBy (.protect level) = true)
    (isClosed : (heap.layout shape).isUnchangedBy .preventExtensions = true) :
    (heap.setIntegrity id level).SameContent heap := by
  have first : (heap.protectProperties id level).SameContent heap := by
    simp only [protectProperties, storage]
    exact sameContent_transition storage isProtected _
  have stillStorage : ((heap.protectProperties id level).object id).storage =
      .shaped shape slots := by
    rw [first.object_eq, storage]
  have stillClosed : ((heap.protectProperties id level).layout shape).isUnchangedBy
      .preventExtensions = true := by
    rw [layout, ShapeGraph.layout_congr first.shapes_eq]
    exact isClosed
  refine SameContent.trans ?_ first
  rw [setIntegrity]
  simp only [preventExtensions, stillStorage]
  exact sameContent_transition stillStorage stillClosed _

/-- Protecting an object again leaves it as it is, its shape and the layout included. -/
theorem WellFormed.setIntegrity_again {heap : Heap} (wellFormed : heap.WellFormed)
    {id : ObjectId} (inRange : id < heap.objects.size) (level : Integrity) :
    ((heap.setIntegrity id level).setIntegrity id level).object id =
        (heap.setIntegrity id level).object id ∧
      ((heap.setIntegrity id level).setIntegrity id level).layout? id =
        (heap.setIntegrity id level).layout? id := by
  have inRange' : id < (heap.setIntegrity id level).objects.size := by
    rwa [(wellFormed.updates_setIntegrity id level).size_eq]
  obtain ⟨table, storage⟩ | ⟨shape, slots, layout, storage, layout_eq⟩ :=
    storage_setIntegrity wellFormed inRange level
  · have again := (wellFormed.updates_setIntegrity id level).wellFormed
    have sameStorage := dictionary_setIntegrity again inRange' storage level
    rw [Dictionary.protect_again, ← storage] at sameStorage
    have sameObject := (again.updates_setIntegrity id level).object_eq
    rw [sameStorage] at sameObject
    refine ⟨sameObject, ?_⟩
    simp only [layout?, shape?, sameObject, storage, Storage.shape?, Option.map_none]
  · have unchanged := layout.isUnchangedBy_protect level
    rw [← layout_eq] at unchanged
    have same := sameContent_setIntegrity storage unchanged.1 unchanged.2
    have sameLayout : ((heap.setIntegrity id level).setIntegrity id level).layout shape =
        (heap.setIntegrity id level).layout shape :=
      ShapeGraph.layout_congr same.shapes_eq shape
    refine ⟨same.object_eq id, ?_⟩
    rw [layout?, layout?, shape?, shape?, same.object_eq, storage]
    exact congrArg some sameLayout

/-! ### What is protected -/

/-- The layout of an object has a frozen flag, so that freezing takes no notice of it, and
yet a data property is writable. -/
def MissesFreeze (heap : Heap) (id : ObjectId) : Prop :=
  heap.skipsProtection id .frozen = true ∧
    ∃ key attributes value,
      heap.lookup id key = some (attributes, .data value) ∧ attributes.writable = true

/-- What protecting an object to a level does: its keys, its prototype and what it stores
stay, attributes are taken away, and no other object changes. -/
structure Protects (before : Heap) (id : ObjectId) (level : Integrity) (after : Heap) :
    Prop where
  isClosed : after.isExtensible id = false
  keys_eq : after.keys id = before.keys id
  ownKeys_eq : after.ownKeys id = before.ownKeys id
  prototype_eq : after.prototype id = before.prototype id
  kind_eq : after.kind id = before.kind id
  absent : ∀ key, before.lookup id key = none → after.lookup id key = none
  present : ∀ key attributes slot, before.lookup id key = some (attributes, slot) →
    ∃ attributes', after.lookup id key = some (attributes', slot) ∧
      attributes'.configurable = false ∧ attributes'.enumerable = attributes.enumerable ∧
      (level = .sealed → attributes'.writable = attributes.writable)
  frozen : level = .frozen →
    ((∀ key attributes value, after.lookup id key = some (attributes, .data value) →
      attributes.writable = false) ↔ ¬ before.MissesFreeze id)
  other : ∀ other, other ≠ id →
    after.object other = before.object other ∧ after.view other = before.view other
  again : (after.setIntegrity id level).object id = after.object id ∧
    (after.setIntegrity id level).layout? id = after.layout? id

/-- The attributes of a property after its object is protected, or left out. -/
def protectedAttributes (heap : Heap) (id : ObjectId) (level : Integrity)
    (attributes : Attributes) (kind : PropertyKind) : Attributes :=
  if heap.skipsProtection id level then attributes else attributes.protect level kind

private theorem enumerable_protect (attributes : Attributes) (level : Integrity)
    (kind : PropertyKind) :
    (attributes.protect level kind).enumerable = attributes.enumerable := by
  cases level <;> cases kind <;> rfl

section Protects

variable {heap : Heap} (wellFormed : heap.WellFormed) {id : ObjectId}

include wellFormed

/-- A layout with a frozen flag has fixed properties only, if not only read-only ones. -/
private theorem fixed_of_skips {level : Integrity} {key : PropertyKey}
    {attributes : Attributes} {slot : Slot}
    (skips : heap.skipsProtection id level = true)
    (found : heap.lookup id key = some (attributes, slot)) :
    attributes.configurable = false := by
  cases level with
  | «sealed» => contradiction
  | frozen =>
      obtain ⟨layout, isLayout, isFrozen⟩ := (Option.any_eq_true _ _).mp skips
      have flagged : layoutHasIntegrity layout .frozen = true := by
        rw [layoutHasIntegrity, isFrozen]
        rfl
      exact wellFormed.fixed_of_layout id isLayout flagged found

private theorem lookup_setIntegrity (inRange : id < heap.objects.size) (level : Integrity)
    (key : PropertyKey) :
    (heap.setIntegrity id level).lookup id key =
      (heap.lookup id key).map fun (attributes, slot) =>
        (heap.protectedAttributes id level attributes slot.kind, slot) := by
  have updates := wellFormed.updates_setIntegrity id level
  rw [updates.wellFormed.lookup_eq, updates.view_eq inRange, wellFormed.lookup_eq,
    PropertyMap.find?_close]
  by_cases skips : heap.skipsProtection id level = true
  · simp only [skips, if_true, protectedAttributes]
    cases (heap.view id).find? key <;> rfl
  · simp only [skips, protectedAttributes]
    exact PropertyMap.find?_protect (heap.view id) level key

private theorem keys_setIntegrity (inRange : id < heap.objects.size) (level : Integrity) :
    (heap.setIntegrity id level).keys id = heap.keys id := by
  have updates := wellFormed.updates_setIntegrity id level
  rw [updates.wellFormed.keys_eq, updates.view_eq inRange, wellFormed.keys_eq]
  show PropertyMap.keys (ite _ _ _) = _
  split
  · rfl
  · exact PropertyMap.keys_protect (heap.view id) level

/-- Protection keeps an object on a shape, or off it. -/
private theorem isDictionary_setIntegrity (inRange : id < heap.objects.size)
    (level : Integrity) :
    (heap.setIntegrity id level).isDictionary id = heap.isDictionary id := by
  cases storage : (heap.object id).storage with
  | dictionary table =>
      have stored := dictionary_setIntegrity wellFormed inRange storage level
      rw [isDictionary, isDictionary, shape?, shape?, stored, storage]
      rfl
  | shaped shape slots =>
      obtain ⟨middle, middleStorage, -⟩ :=
        shaped_protectProperties wellFormed inRange storage level
      have first := wellFormed.updates_protectProperties id level
      obtain ⟨target, targetStorage, -⟩ :=
        shaped_preventExtensions first.wellFormed (by rwa [first.size_eq]) middleStorage
      have stored : ((heap.setIntegrity id level).object id).storage = .shaped target slots :=
        targetStorage
      rw [isDictionary, isDictionary, shape?, shape?, stored, storage]
      rfl

private theorem ownKeys_setIntegrity (inRange : id < heap.objects.size) (level : Integrity) :
    (heap.setIntegrity id level).ownKeys id = heap.ownKeys id := by
  have updates := wellFormed.updates_setIntegrity id level
  have keys := keys_setIntegrity wellFormed inRange level
  have ordered : (heap.setIntegrity id level).keysOrdered id = heap.keysOrdered id := by
    rw [updates.wellFormed.keysOrdered_eq, wellFormed.keysOrdered_eq,
      isDictionary_setIntegrity wellFormed inRange, ← updates.wellFormed.keys_eq, keys,
      wellFormed.keys_eq]
  rw [ownKeys, ownKeys, ordered, keys, updates.config_eq]

/-- Freezing makes every data property read-only, unless it takes no notice. -/
private theorem frozen_iff (inRange : id < heap.objects.size) :
    (∀ key attributes value,
        (heap.setIntegrity id .frozen).lookup id key = some (attributes, .data value) →
          attributes.writable = false) ↔ ¬ heap.MissesFreeze id := by
  constructor
  · rintro readOnly ⟨skips, key, attributes, value, found, writable⟩
    have kept : (heap.setIntegrity id .frozen).lookup id key =
        some (attributes, .data value) := by
      rw [lookup_setIntegrity wellFormed inRange, found]
      simp only [Option.map_some, protectedAttributes, skips, if_true]
    rw [readOnly key attributes value kept] at writable
    contradiction
  · intro notices key attributes value found
    rw [lookup_setIntegrity wellFormed inRange] at found
    obtain ⟨⟨old, slot⟩, search, answer⟩ := Option.map_eq_some_iff.mp found
    cases answer
    by_cases skips : heap.skipsProtection id .frozen = true
    · simp only [protectedAttributes, skips, if_true]
      by_cases writable : old.writable = true
      · exact absurd ⟨skips, key, old, value, search, writable⟩ notices
      · exact Bool.not_eq_true _ ▸ writable
    · simp only [protectedAttributes, skips]
      rfl

theorem WellFormed.protects (inRange : id < heap.objects.size) (level : Integrity) :
    heap.Protects id level (heap.setIntegrity id level) where
  isClosed := by
    rw [isExtensible_eq, (wellFormed.updates_setIntegrity id level).view_eq inRange]
    rfl
  keys_eq := keys_setIntegrity wellFormed inRange level
  ownKeys_eq := ownKeys_setIntegrity wellFormed inRange level
  prototype_eq := (wellFormed.updates_setIntegrity id level).prototype_eq id
  kind_eq := (wellFormed.updates_setIntegrity id level).kind_eq id
  absent := by
    intro key absent
    rw [lookup_setIntegrity wellFormed inRange, absent]
    rfl
  present := by
    intro key attributes slot found
    refine ⟨heap.protectedAttributes id level attributes slot.kind, ?_, ?_⟩
    · rw [lookup_setIntegrity wellFormed inRange, found]
      rfl
    · unfold protectedAttributes
      split
      · rename_i skips
        exact ⟨fixed_of_skips wellFormed skips found, rfl, fun _ => rfl⟩
      · refine ⟨Layout.protect_configurable _ _ _, enumerable_protect _ _ _, ?_⟩
        intro isSealed
        rw [isSealed]
        rfl
  frozen := by
    intro isFrozen
    rw [isFrozen]
    exact frozen_iff wellFormed inRange
  other := by
    intro other different
    have updates := wellFormed.updates_setIntegrity id level
    exact ⟨updates.object_other other (.inl different),
      updates.view_other wellFormed different⟩
  again := wellFormed.setIntegrity_again inRange level

end Protects

end Heap

/-- Sealing or freezing an object that is not exotic is always accepted, in every heap that
any definitions, deletions, writes and protections lead to. Every property is fixed then,
and after freezing every data property is read-only, except if the layout of the object
misses it. -/
theorem Machine.setIntegrity_protects {σ : Type} (dispatch : Dispatch σ) (world : World σ)
    (reachable : world.heap.Reachable) {id : ObjectId}
    (inRange : id < world.heap.objects.size) (ordinary : world.heap.isExotic id = false)
    (level : Integrity) :
    ∃ after, Machine.setIntegrity dispatch id level world =
        .ok .accepted { world with heap := after } ∧
      world.heap.Protects id level after := by
  refine ⟨world.heap.setIntegrity id level, ?_, reachable.wellFormed.protects inRange level⟩
  obtain ⟨heap, depth, client⟩ := world
  have isOrdinary : heap.isExotic id = false := ordinary
  show (if !heap.isExotic id then _ else _ : Exec σ Verdict) ⟨heap, depth, client⟩ = _
  rw [isOrdinary]
  rfl

/-- Two properties are sealed, and then the first one is made read-only. -/
def Heap.Command.sealThenFix : List Heap.Command := [
  .allocate 0 .ordinary none false,
  .defineOwn 0 (.symbol ⟨0, none⟩) (.data .null .assigned),
  .defineOwn 0 (.symbol ⟨1, none⟩) (.data .null .assigned),
  .setIntegrity 0 .sealed,
  .defineOwn 0 (.symbol ⟨0, none⟩) { writable := some false }]

/-- Freezing leaves the second property writable. -/
theorem Machine.setIntegrity_leaves_writable :
    let heap := Heap.Command.runAll (.start {}) Heap.Command.sealThenFix
    ∃ after, Machine.setIntegrity (fun _ => Exec.outOfFuel : Dispatch Unit) 0 .frozen
        ⟨heap, 0, ()⟩ = .ok .accepted ⟨after, 0, ()⟩ ∧
      ∃ key attributes value, after.lookup 0 key = some (attributes, .data value) ∧
        attributes.writable = true := by
  intro heap
  have misses : heap.MissesFreeze 0 :=
    ⟨by decide, .symbol ⟨1, none⟩, ⟨true, true, false⟩, .null, by decide, rfl⟩
  have reachable : heap.Reachable := ⟨{}, Heap.Command.sealThenFix, rfl⟩
  have inRange : 0 < heap.objects.size := by decide
  have ordinary : heap.isExotic 0 = false := by decide
  clear_value heap
  obtain ⟨after, accepted, protects⟩ := Machine.setIntegrity_protects
    (fun _ => Exec.outOfFuel : Dispatch Unit) ⟨heap, 0, ()⟩ reachable inRange ordinary .frozen
  refine ⟨after, accepted, ?_⟩
  by_contra noWritable
  apply (protects.frozen rfl).mp _ misses
  intro key attributes value found
  by_contra writable
  exact noWritable ⟨key, attributes, value, found, Bool.not_eq_false _ ▸ writable⟩

end ObjectModel
