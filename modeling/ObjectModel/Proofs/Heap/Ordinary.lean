import ObjectModel.Proofs.Heap.Store
import ObjectModel.Proofs.Storage.Change

/-!
Contract: the algorithms of ordinary objects take only checked steps.

Each operation on an object leaves the other objects alone (`Heap.Updates`) and takes its
properties along `PropertyMap.Change` (`Heap.Moves`).

Does not own: prototypes, and the objects that descriptions are turned into
(`Heap.Command`).
-/

namespace ObjectModel.Heap

/-- One object takes checked steps, and nothing else changes. -/
def Moves (before : Heap) (id : ObjectId) (after : Heap) : Prop :=
  ∃ map, before.Updates id map after ∧
    Relation.ReflTransGen PropertyMap.Change (before.view id) map

/-! ### Kinds -/

theorem proxy?_eq_some {heap : Heap} {id : ObjectId} {link : ProxyLink} :
    heap.proxy? id = some link ↔ heap.kind id = .proxy link := by
  unfold proxy?
  split
  · rename_i link' isProxy
    rw [isProxy, Option.some.injEq, ObjectKind.proxy.injEq]
  · rename_i notProxy
    constructor
    · intro found
      contradiction
    · exact fun isProxy => absurd isProxy (notProxy link)

theorem isExotic_of_kind {heap : Heap} {id : ObjectId} {link : ProxyLink}
    (isProxy : heap.kind id = .proxy link) : heap.isExotic id = true := by
  rw [isExotic, proxy?_eq_some.mpr isProxy]
  rfl

theorem isExotic_congr {before after : Heap} {id : ObjectId}
    (same : after.kind id = before.kind id) : after.isExotic id = before.isExotic id := by
  rw [isExotic, proxy?, same, isExotic, proxy?]

/-- What can be called depends on the kinds of the objects only. -/
theorem isCallableWithin_congr {before after : Heap}
    (kind_eq : ∀ id, after.kind id = before.kind id) (steps : Nat) (id : ObjectId) :
    after.isCallableWithin steps id = before.isCallableWithin steps id := by
  induction steps generalizing id with
  | zero => rfl
  | succ steps inductionHypothesis =>
      rw [isCallableWithin, isCallableWithin, kind_eq]
      cases before.kind id with
      | ordinary => rfl
      | function name body => rfl
      | proxy link => exact inductionHypothesis link.target

theorem isCallable_congr {before after : Heap}
    (size_eq : after.objects.size = before.objects.size)
    (kind_eq : ∀ id, after.kind id = before.kind id) (id : ObjectId) :
    after.isCallable id = before.isCallable id := by
  rw [isCallable, isCallable, size_eq, isCallableWithin_congr kind_eq]

/-- Only objects that exist are exotic. -/
theorem lt_of_isExotic {heap : Heap} {id : ObjectId} (exotic : heap.isExotic id = true) :
    id < heap.objects.size := by
  by_contra outside
  rw [isExotic, proxy?, kind, object_outside (Nat.le_of_not_lt outside)] at exotic
  contradiction

/-! ### Properties -/

section Ordinary

variable {heap : Heap} (wellFormed : heap.WellFormed) (id : ObjectId)

include wellFormed

theorem WellFormed.moves_refl : heap.Moves id heap :=
  ⟨heap.view id, .refl wellFormed rfl, .refl⟩

theorem WellFormed.getOwn_eq (key : PropertyKey) :
    heap.getOwn id key = (heap.view id).descriptor? key := by
  rw [getOwn, wellFormed.lookup_eq, PropertyMap.descriptor?]

theorem WellFormed.getOwn_eq_none_iff (key : PropertyKey) :
    heap.getOwn id key = none ↔ key ∉ (heap.view id).keys := by
  rw [wellFormed.getOwn_eq, PropertyMap.descriptor?, Option.map_eq_none_iff,
    PropertyMap.find?_eq_none_iff]

theorem WellFormed.isSome_getOwn_iff (key : PropertyKey) :
    (heap.getOwn id key).isSome = true ↔ key ∈ (heap.view id).keys := by
  rw [wellFormed.getOwn_eq, PropertyMap.descriptor?, Option.isSome_map,
    PropertyMap.isSome_find?_iff]

theorem WellFormed.mem_keys_of_getOwn {key : PropertyKey} {current : Descriptor}
    (found : heap.getOwn id key = some current) : key ∈ (heap.view id).keys := by
  rw [← wellFormed.isSome_getOwn_iff, found, Option.isSome_some]

/-- A description that was read from an object says what is stored. -/
theorem WellFormed.find?_of_getOwn {key : PropertyKey} {current : Descriptor}
    (found : heap.getOwn id key = some current) :
    ∃ attributes slot, (heap.view id).find? key = some (attributes, slot) ∧
      current = .ofStored attributes slot := by
  rw [wellFormed.getOwn_eq] at found
  exact PropertyMap.descriptor?_eq_some found

/-- A layout that says that its properties are fixed is right. -/
theorem WellFormed.fixed_of_layout {layout : Layout} (found : heap.layout? id = some layout)
    {level : Integrity} (flagged : layoutHasIntegrity layout level = true)
    {key : PropertyKey} {attributes : Attributes} {slot : Slot}
    (stored : heap.lookup id key = some (attributes, slot)) :
    attributes.configurable = false := by
  have shaped := wellFormed.storage id
  simp only [layout?, shape?] at found
  simp only [lookup] at stored
  cases storage : (heap.object id).storage with
  | dictionary table =>
      rw [storage] at found
      contradiction
  | shaped shape slots =>
      rw [storage] at found stored shaped
      obtain rfl := Option.some.inj found
      obtain ⟨property, search, answer⟩ := Option.map_eq_some_iff.mp stored
      cases answer
      have isSealed : (heap.layout shape).sealed = true := by
        simp only [layoutHasIntegrity, Bool.or_eq_true, Bool.and_eq_true] at flagged
        exact flagged.elim shaped.2.1.sealedWhenFrozen And.left
      exact shaped.2.1.fixedWhenSealed isSealed property (List.mem_of_find?_eq_some search)

/-! ### Definitions -/

/-- An existing property is replaced, also where only its value is written. -/
theorem WellFormed.updates_storeMerged {key : PropertyKey} {current : Descriptor}
    (found : heap.getOwn id key = some current) (attributes : Attributes) (slot : Slot) :
    heap.Updates id ((heap.view id).replace key attributes slot)
      (heap.storeMerged id key current attributes slot) := by
  have replaced := wellFormed.updates_replaceProperty id key attributes slot
  cases slot with
  | accessor getter setter => exact replaced
  | data value =>
      simp only [storeMerged]
      split
      · rename_i inPlace
        simp only [Bool.and_eq_true, decide_eq_true_eq] at inPlace
        obtain ⟨⟨-, hasData⟩, sameAttributes⟩ := inPlace
        obtain ⟨old, oldSlot, search, rfl⟩ := wellFormed.find?_of_getOwn id found
        rw [wellFormed.hasData_eq, PropertyMap.hasData, search, Option.any_some,
          decide_eq_true_eq] at hasData
        have attributes_eq : attributes = old := by
          rw [sameAttributes]
          cases oldSlot with
          | data _ => rfl
          | accessor _ _ => contradiction
        rw [attributes_eq,
          ← PropertyMap.write_eq_replace (wellFormed.nodup_keys id) search hasData]
        exact wellFormed.updates_writeData id key value
      · exact replaced

/-- What a definition does: nothing, or it adds a property that is absent, or it replaces one
after the checks. -/
theorem WellFormed.defineOwn_cases (key : PropertyKey) (change : Descriptor) :
    (heap.defineOwn id key change).1 = heap ∨
      (∃ attributes slot, (heap.view id).extensible = true ∧ key ∉ (heap.view id).keys ∧
        change.create heap.isCallable = .ok (attributes, slot) ∧
        (heap.defineOwn id key change).1 = heap.addProperty id key attributes slot) ∨
      ∃ attributes slot attributes' slot',
        (heap.view id).find? key = some (attributes, slot) ∧
          (Descriptor.ofStored attributes slot).admits change = true ∧
          (Descriptor.ofStored attributes slot).merge heap.isCallable change =
            .ok (attributes', slot') ∧
          heap.Updates id ((heap.view id).replace key attributes' slot')
            (heap.defineOwn id key change).1 := by
  unfold defineOwn validateAndApply
  split
  · exact .inl rfl
  · rename_i accepted
    simp only
    split
    · exact .inl rfl
    · exact .inl rfl
    · rename_i attributes slot stored
      cases found : heap.getOwn id key with
      | none =>
          have absent := (wellFormed.getOwn_eq_none_iff id key).mp found
          have isOpen : (heap.view id).extensible = true := by
            rw [found] at accepted
            simp only [Descriptor.refusal?] at accepted
            rw [← isExtensible_eq]
            by_cases extensible : heap.isExtensible id = true
            · exact extensible
            · rw [if_neg extensible] at accepted
              contradiction
          rw [found] at stored
          have created : change.create heap.isCallable = .ok (attributes, slot) :=
            Descriptor.stored?_eq_ok stored
          exact .inr (.inl ⟨attributes, slot, isOpen, absent, created, rfl⟩)
      | some current =>
          rw [found] at accepted stored
          have admitted : current.admits change = true := by
            simp only [Descriptor.refusal?] at accepted
            by_cases admits : current.admits change = true
            · exact admits
            · rw [if_neg admits] at accepted
              contradiction
          have merged : current.merge heap.isCallable change = .ok (attributes, slot) :=
            Descriptor.stored?_eq_ok stored
          obtain ⟨old, oldSlot, search, rfl⟩ := wellFormed.find?_of_getOwn id found
          exact .inr (.inr ⟨old, oldSlot, attributes, slot, search, admitted, merged,
            wellFormed.updates_storeMerged id found attributes slot⟩)

/-- A definition of any kind changes at most the object that it is made on. -/
theorem WellFormed.updates_defineOwn (key : PropertyKey) (change : Descriptor) :
    ∃ map, heap.Updates id map (heap.defineOwn id key change).1 := by
  obtain unchanged | ⟨attributes, slot, -, absent, -, added⟩ | ⟨_, _, _, _, -, -, -, updates⟩ :=
    wellFormed.defineOwn_cases id key change
  · rw [unchanged]
    exact ⟨_, .refl wellFormed rfl⟩
  · rw [added]
    exact ⟨_, wellFormed.updates_addProperty id absent attributes slot⟩
  · exact ⟨_, updates⟩

theorem WellFormed.moves_defineOwn {change : Descriptor} (notMixed : change.isMixed = false)
    (key : PropertyKey) : heap.Moves id (heap.defineOwn id key change).1 := by
  obtain unchanged | ⟨attributes, slot, isOpen, absent, -, added⟩ |
      ⟨_, _, _, _, found, admitted, merged, updates⟩ :=
    wellFormed.defineOwn_cases id key change
  · rw [unchanged]
    exact wellFormed.moves_refl id
  · rw [added]
    exact ⟨_, wellFormed.updates_addProperty id absent attributes slot,
      .single (.add isOpen absent attributes slot)⟩
  · exact ⟨_, updates, .single (.redefine found notMixed admitted merged)⟩

/-! ### Other operations -/

theorem WellFormed.moves_deleteOwn (key : PropertyKey) :
    heap.Moves id (heap.deleteOwn id key).1 := by
  unfold deleteOwn
  split
  · exact wellFormed.moves_refl id
  · rename_i attributes slot found
    rw [wellFormed.lookup_eq] at found
    split
    · rename_i configurable
      exact ⟨_, wellFormed.updates_removeProperty id key, .single (.remove found configurable)⟩
    · exact wellFormed.moves_refl id

theorem WellFormed.moves_writeData {key : PropertyKey} {attributes : Attributes} {old : Value}
    (found : heap.lookup id key = some (attributes, .data old))
    (writable : attributes.writable = true) (value : Value) :
    heap.Moves id (heap.writeData id key value) := by
  rw [wellFormed.lookup_eq] at found
  exact ⟨_, wellFormed.updates_writeData id key value, .single (.write found writable value)⟩

theorem WellFormed.moves_preventExtensions : heap.Moves id (heap.preventExtensions id) :=
  ⟨_, wellFormed.updates_preventExtensions id, .single (.close _)⟩

/-- The properties after protection to a level: unchanged where the layout says that there
is nothing to do. Extensions are prevented in any case. -/
theorem WellFormed.updates_setIntegrity (level : Integrity) :
    heap.Updates id
      (if heap.skipsProtection id level then heap.view id
        else (heap.view id).protect level).close
      (heap.setIntegrity id level) := by
  have first := wellFormed.updates_protectProperties id level
  have second := first.wellFormed.updates_preventExtensions id
  refine { first.trans second with view_eq := ?_ }
  intro inRange
  rw [← first.view_eq inRange]
  exact (first.trans second).view_eq inRange

theorem WellFormed.moves_setIntegrity (level : Integrity) :
    heap.Moves id (heap.setIntegrity id level) := by
  refine ⟨_, wellFormed.updates_setIntegrity id level, ?_⟩
  split
  · exact .single (.close _)
  · exact (Relation.ReflTransGen.single (.protect _ level)).tail (.close _)

end Ordinary

end ObjectModel.Heap
