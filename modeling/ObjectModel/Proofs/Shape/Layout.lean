import Mathlib.Data.List.Nodup
import ObjectModel.Shape.Layout
import ObjectModel.Proofs.Storage.PropertyMap

/-!
Contract: what every layout satisfies, and what a step does to the properties that a
layout and a list of slots describe together.

Owns: `Layout.WellFormed`, which every allowed step keeps; `Layout.view`, the
`PropertyMap` that a layout gives to the slots of an object; one equation for the view
after each step.

`Layout.apply` always takes the step. `Layout.after` leaves it out where
`Layout.isUnchangedBy` says that it changes nothing, which is what a graph of shapes
does. The two agree on every view but one: a layout with a frozen flag leaves out
`freeze` even if a property is still writable.
-/

namespace ObjectModel

/-! ### Enumeration order -/

theorem PropertyKey.mayPrecede_trans {first second third : PropertyKey}
    (left : first.mayPrecede second = true) (right : second.mayPrecede third = true) :
    first.mayPrecede third = true := by
  cases first <;> cases second <;> cases third <;>
    simp_all [mayPrecede, order, orderClass, Nat.compare_eq_gt]
  omega

instance : Trans (fun left right : PropertyKey => left.mayPrecede right = true)
    (fun left right => left.mayPrecede right = true)
    (fun left right => left.mayPrecede right = true) where
  trans := PropertyKey.mayPrecede_trans

/-- Each key may precede all that are behind it, not only the next one. -/
theorem inEnumerationOrder_iff_pairwise {keys : List PropertyKey} :
    inEnumerationOrder keys = true ↔
      keys.Pairwise fun first second => first.mayPrecede second = true := by
  rw [← List.isChain_iff_pairwise]
  induction keys with
  | nil => simp [inEnumerationOrder]
  | cons first rest inductionHypothesis =>
      cases rest with
      | nil => simp [inEnumerationOrder]
      | cons second rest =>
          rw [inEnumerationOrder, Bool.and_eq_true, inductionHypothesis,
            List.isChain_cons_cons]

namespace Layout

/-- The properties have different keys and are numbered in creation order, and the flags
are no promise that the properties do not keep. A frozen flag promises only what a
sealed flag does: it says nothing of writable attributes. -/
structure WellFormed (layout : Layout) : Prop where
  keysNodup : layout.keys.Nodup
  slots_eq : layout.properties.map (·.slot) = List.range layout.count
  slotCount_eq : layout.slotCount = layout.count
  fixedWhenSealed : layout.sealed = true →
    ∀ property ∈ layout.properties, property.attributes.configurable = false
  sealedWhenFrozen : layout.frozen = true → layout.sealed = true
  ordered_eq : layout.ordered = inEnumerationOrder layout.keys

/-- A property may be added only under a new key. -/
def Allows (layout : Layout) : Transition → Prop
  | .add key _ _ => layout.find? key = none
  | _ => True

instance (layout : Layout) (step : Transition) : Decidable (layout.Allows step) := by
  cases step <;> unfold Allows <;> infer_instance

/-- The layout that a step leads to, when steps that change nothing are left out. -/
def after (layout : Layout) (step : Transition) : Layout :=
  if layout.isUnchangedBy step then layout else layout.apply step

/-- The properties that a layout describes, with the contents of their slots. -/
def view (layout : Layout) (slots : List Slot) : PropertyMap where
  entries := layout.properties.map fun property =>
    ⟨property.key, property.attributes, slots.getD property.slot default⟩
  extensible := layout.extensible

/-- The slots hold what the layout says: one for each property, of its kind. -/
structure Fits (layout : Layout) (slots : List Slot) : Prop where
  length_eq : slots.length = layout.count
  kind_eq : ∀ property ∈ layout.properties,
    (slots.getD property.slot default).kind = property.kind

theorem wellFormed_empty : empty.WellFormed where
  keysNodup := List.nodup_nil
  slots_eq := rfl
  slotCount_eq := rfl
  fixedWhenSealed := by intro isSealed; contradiction
  sealedWhenFrozen := by intro isFrozen; contradiction
  ordered_eq := rfl

theorem fits_empty : empty.Fits [] where
  length_eq := rfl
  kind_eq := by intro property member; contradiction

/-! ### Lookups -/

theorem find?_view (layout : Layout) (slots : List Slot) (key : PropertyKey) :
    (layout.view slots).find? key =
      (layout.find? key).map fun property =>
        (property.attributes, slots.getD property.slot default) := by
  simp [PropertyMap.find?, view, find?, List.find?_map, Function.comp_def]

@[simp] theorem keys_view (layout : Layout) (slots : List Slot) :
    (layout.view slots).keys = layout.keys := by
  simp [PropertyMap.keys, view, keys, Function.comp_def]

@[simp] theorem count_view (layout : Layout) (slots : List Slot) :
    (layout.view slots).count = layout.count := by
  simp [PropertyMap.count, view, count]

theorem mem_of_find? {layout : Layout} {key : PropertyKey} {property : Property}
    (found : layout.find? key = some property) :
    property ∈ layout.properties ∧ property.key = key :=
  ⟨List.mem_of_find?_eq_some found, by simpa using List.find?_some found⟩

theorem find?_eq_none_iff {layout : Layout} {key : PropertyKey} :
    layout.find? key = none ↔ key ∉ layout.keys := by
  simp [find?, keys]

theorem hasData_view {layout : Layout} {slots : List Slot} (fits : layout.Fits slots)
    (key : PropertyKey) :
    (layout.view slots).hasData key = (layout.find? key).any (·.kind = .data) := by
  rw [PropertyMap.hasData, find?_view]
  cases search : layout.find? key with
  | none => rfl
  | some property =>
      have sameKind := fits.kind_eq property (mem_of_find? search).1
      simp only [Option.map_some, Option.any_some, sameKind]

namespace WellFormed

variable {layout : Layout} (wellFormed : layout.WellFormed)
include wellFormed

/-- The property at a position has that position as its slot. -/
theorem slot_getElem (position : Nat) (inRange : position < layout.properties.length) :
    layout.properties[position].slot = position := by
  have numbered := congrArg (·[position]?) wellFormed.slots_eq
  simpa [count, inRange] using numbered

theorem slot_lt {property : Property} (member : property ∈ layout.properties) :
    property.slot < layout.count := by
  have listed : property.slot ∈ layout.properties.map (·.slot) :=
    List.mem_map_of_mem member
  rw [wellFormed.slots_eq] at listed
  exact List.mem_range.mp listed

theorem eq_of_key_eq {first second : Property}
    (firstMember : first ∈ layout.properties) (secondMember : second ∈ layout.properties)
    (sameKey : first.key = second.key) : first = second :=
  List.inj_on_of_nodup_map wellFormed.keysNodup firstMember secondMember sameKey

/-- Properties share a slot only if they share the key. -/
theorem slot_eq_iff {first second : Property} (firstMember : first ∈ layout.properties)
    (secondMember : second ∈ layout.properties) :
    first.slot = second.slot ↔ first.key = second.key := by
  constructor
  · obtain ⟨left, leftRange, rfl⟩ := List.getElem_of_mem firstMember
    obtain ⟨right, rightRange, rfl⟩ := List.getElem_of_mem secondMember
    rw [wellFormed.slot_getElem left leftRange, wellFormed.slot_getElem right rightRange]
    intro same
    subst same
    rfl
  · intro sameKey
    rw [wellFormed.eq_of_key_eq firstMember secondMember sameKey]

end WellFormed

/-! ### Steps keep layouts well formed -/

theorem placeIn_of_absent (property : Property) (properties : List Property)
    (absent : ∀ other ∈ properties, other.key ≠ property.key) :
    property.placeIn properties = properties ++ [property] := by
  induction properties with
  | nil => rfl
  | cons head rest inductionHypothesis =>
      rw [Property.placeIn, if_neg (absent head List.mem_cons_self),
        inductionHypothesis fun other member =>
          absent other (List.mem_cons_of_mem head member)]
      rfl

theorem inEnumerationOrder_append (keys : List PropertyKey) (last : PropertyKey) :
    inEnumerationOrder (keys ++ [last]) =
      (inEnumerationOrder keys && keys.getLast?.all (·.mayPrecede last)) := by
  induction keys with
  | nil => rfl
  | cons first rest inductionHypothesis =>
      cases rest with
      | nil => simp [inEnumerationOrder]
      | cons second rest =>
          rw [List.cons_append, List.cons_append, inEnumerationOrder,
            ← List.cons_append, inductionHypothesis, inEnumerationOrder, Bool.and_assoc]
          rfl

theorem apply_add_properties {layout : Layout} {key : PropertyKey}
    (absent : layout.find? key = none) (attributes : Attributes) (kind : PropertyKind) :
    (layout.apply (.add key attributes kind)).properties =
      layout.properties ++ [⟨key, attributes, kind, layout.slotCount⟩] := by
  apply placeIn_of_absent
  intro other member same
  rw [find?_eq_none_iff] at absent
  exact absent (List.mem_map.mpr ⟨other, member, same⟩)

private theorem wellFormed_add {layout : Layout} (wellFormed : layout.WellFormed)
    {key : PropertyKey} (absent : layout.find? key = none) (attributes : Attributes)
    (kind : PropertyKind) :
    (layout.apply (.add key attributes kind)).WellFormed := by
  have properties := apply_add_properties absent attributes kind
  have fresh := find?_eq_none_iff.mp absent
  refine ⟨?_, ?_, ?_, ?_, ?_, ?_⟩
  · rw [keys, properties, List.map_append]
    exact List.nodup_append.mpr ⟨wellFormed.keysNodup, by simp, by
      intro other member last lastMember same
      rw [List.mem_map] at lastMember
      simp only [List.mem_singleton] at lastMember
      obtain ⟨_, rfl, rfl⟩ := lastMember
      subst same
      exact fresh member⟩
  · rw [count, properties, List.map_append, wellFormed.slots_eq, wellFormed.slotCount_eq]
    simp [count, List.range_succ]
  · rw [count, properties]
    simp [apply, wellFormed.slotCount_eq, count]
  · intro isSealed
    contradiction
  · intro isFrozen
    contradiction
  · rw [keys, properties, List.map_append, List.map_singleton, inEnumerationOrder_append]
    show layout.staysOrdered key = _
    rw [staysOrdered, wellFormed.ordered_eq, List.getLast?_map, keys]
    cases layout.properties.getLast? <;> rfl

private theorem keys_renumbered (properties : List Property) :
    (properties.mapIdx fun slot property => { property with slot := slot }).map (·.key) =
      properties.map (·.key) := by
  apply List.ext_getElem <;> simp

private theorem slots_renumbered (properties : List Property) :
    (properties.mapIdx fun slot property => { property with slot := slot }).map (·.slot) =
      List.range properties.length := by
  apply List.ext_getElem <;> simp

private theorem wellFormed_remove {layout : Layout} (wellFormed : layout.WellFormed)
    (key : PropertyKey) : (layout.apply (.remove key)).WellFormed := by
  refine ⟨?_, ?_, rfl, ?_, wellFormed.sealedWhenFrozen, rfl⟩
  · simp only [apply, keys, keys_renumbered]
    exact (List.filter_sublist.map _).nodup wellFormed.keysNodup
  · simp only [apply, count, slots_renumbered, List.length_mapIdx]
  · intro isSealed property member
    obtain ⟨position, inRange, rfl⟩ := List.mem_mapIdx.mp member
    have kept := (List.mem_filter.mp (List.getElem_mem inRange)).1
    have fixed := wellFormed.fixedWhenSealed isSealed _ kept
    exact fixed

/-- Steps that edit properties in place keep everything but the flags. -/
private theorem wellFormed_edit {layout : Layout} (wellFormed : layout.WellFormed)
    (result : Layout) (edit : Property → Property)
    (keeps : ∀ property, (edit property).key = property.key ∧
      (edit property).slot = property.slot)
    (properties_eq : result.properties = layout.properties.map edit)
    (slotCount_eq : result.slotCount = layout.slotCount)
    (ordered_eq : result.ordered = layout.ordered)
    (fixedWhenSealed : result.sealed = true →
      ∀ property ∈ layout.properties, (edit property).attributes.configurable = false)
    (sealedWhenFrozen : result.frozen = true → result.sealed = true) :
    result.WellFormed := by
  have keys_eq : result.keys = layout.keys := by
    simp [keys, properties_eq, Function.comp_def, keeps]
  have count_eq : result.count = layout.count := by
    simp [count, properties_eq]
  refine ⟨keys_eq ▸ wellFormed.keysNodup, ?_, ?_, ?_, sealedWhenFrozen, ?_⟩
  · rw [count_eq, ← wellFormed.slots_eq, properties_eq]
    simp [Function.comp_def, keeps]
  · rw [slotCount_eq, count_eq, wellFormed.slotCount_eq]
  · intro isSealed property member
    rw [properties_eq] at member
    obtain ⟨old, oldMember, rfl⟩ := List.mem_map.mp member
    exact fixedWhenSealed isSealed old oldMember
  · rw [ordered_eq, keys_eq, wellFormed.ordered_eq]

private theorem wellFormed_reconfigure {layout : Layout} (wellFormed : layout.WellFormed)
    (key : PropertyKey) (attributes : Attributes) (kind : PropertyKind) :
    (layout.apply (.reconfigure key attributes kind)).WellFormed := by
  refine wellFormed_edit wellFormed _ _ ?_ rfl rfl rfl ?_ ?_
  · intro property
    split <;> exact ⟨rfl, rfl⟩
  · intro isSealed property member
    simp only [apply, Bool.and_eq_true, Bool.not_eq_true'] at isSealed
    split
    · exact isSealed.2
    · exact wellFormed.fixedWhenSealed isSealed.1 property member
  · intro isFrozen
    simp only [apply, Bool.and_eq_true] at isFrozen ⊢
    exact isFrozen.1

theorem protect_configurable (attributes : Attributes) (level : Integrity)
    (kind : PropertyKind) : (attributes.protect level kind).configurable = false := by
  cases level <;> cases kind <;> rfl

private theorem wellFormed_protect {layout : Layout} (wellFormed : layout.WellFormed)
    (level : Integrity) : (layout.apply (.protect level)).WellFormed := by
  have fixed : ∀ property ∈ layout.properties,
      (property.attributes.protect level property.kind).configurable = false :=
    fun property _ => protect_configurable property.attributes level property.kind
  cases level with
  | «sealed» =>
      exact wellFormed_edit wellFormed (layout.apply .seal)
        (fun property => { property with attributes := property.attributes.sealed })
        (fun _ => ⟨rfl, rfl⟩) rfl rfl rfl (fun _ => fixed) (fun _ => rfl)
  | frozen =>
      exact wellFormed_edit wellFormed (layout.apply .freeze)
        (fun property =>
          { property with attributes := property.attributes.frozen property.kind })
        (fun _ => ⟨rfl, rfl⟩) rfl rfl rfl (fun _ => fixed) (fun _ => rfl)

/-- Every allowed step keeps a layout well formed. -/
theorem WellFormed.apply {layout : Layout} (wellFormed : layout.WellFormed)
    {step : Transition} (allowed : layout.Allows step) :
    (layout.apply step).WellFormed := by
  cases step with
  | add key attributes kind => exact wellFormed_add wellFormed allowed attributes kind
  | remove key => exact wellFormed_remove wellFormed key
  | reconfigure key attributes kind =>
      exact wellFormed_reconfigure wellFormed key attributes kind
  | preventExtensions =>
      exact { wellFormed with }
  | «seal» => exact wellFormed_protect wellFormed .sealed
  | freeze => exact wellFormed_protect wellFormed .frozen

theorem WellFormed.after {layout : Layout} (wellFormed : layout.WellFormed)
    {step : Transition} (allowed : layout.Allows step) :
    (layout.after step).WellFormed := by
  unfold Layout.after
  split
  · exact wellFormed
  · exact wellFormed.apply allowed

/-! ### The view after a step -/

/-- In a list of elements with different keys, dropping the key of one drops that
one. -/
private theorem filter_ne_eq_eraseIdx {properties : List Property}
    (keysNodup : (properties.map (·.key)).Nodup) (position : Nat)
    (inRange : position < properties.length) :
    properties.filter (·.key ≠ properties[position].key) =
      properties.eraseIdx position := by
  have halves := (List.take_append_drop position properties).symm
  rw [List.drop_eq_getElem_cons inRange] at halves
  rw [halves, List.map_append, List.map_cons, List.nodup_append, List.nodup_cons]
    at keysNodup
  obtain ⟨-, ⟨notBehind, -⟩, apart⟩ := keysNodup
  rw [List.eraseIdx_eq_take_drop_succ]
  calc
    properties.filter (·.key ≠ properties[position].key)
      = (properties.take position ++ properties[position] ::
          properties.drop (position + 1)).filter (·.key ≠ properties[position].key) :=
        congrArg _ halves
    _ = properties.take position ++ properties.drop (position + 1) := by
        rw [List.filter_append, List.filter_cons_of_neg (by simp)]
        congr 1
        · rw [List.filter_eq_self]
          intro other before
          have different := apart other.key (List.mem_map_of_mem before) _
            List.mem_cons_self
          simpa using different
        · rw [List.filter_eq_self]
          intro other behind
          have different : other.key ≠ properties[position].key := fun same =>
            notBehind (same ▸ List.mem_map_of_mem behind)
          simpa using different

theorem filter_eq_eraseIdx {layout : Layout} (wellFormed : layout.WellFormed)
    {key : PropertyKey} {property : Property}
    (found : layout.find? key = some property) :
    layout.properties.filter (·.key ≠ key) = layout.properties.eraseIdx property.slot := by
  obtain ⟨member, rfl⟩ := mem_of_find? found
  obtain ⟨position, inRange, rfl⟩ := List.getElem_of_mem member
  rw [wellFormed.slot_getElem position inRange]
  exact filter_ne_eq_eraseIdx wellFormed.keysNodup position inRange

section View

variable {layout : Layout} {slots : List Slot} (wellFormed : layout.WellFormed)
  (fits : layout.Fits slots)

include wellFormed fits

/-- Setting the slot of a property changes that property and no other. -/
private theorem getD_set {property other : Property} (member : property ∈ layout.properties)
    (otherMember : other ∈ layout.properties) (slot : Slot) :
    (slots.set property.slot slot).getD other.slot default =
      if other.key = property.key then slot else slots.getD other.slot default := by
  have inRange : property.slot < slots.length := by
    rw [fits.length_eq]
    exact wellFormed.slot_lt member
  rw [List.getD_eq_getElem?_getD, List.getElem?_set, if_pos inRange]
  by_cases sameKey : other.key = property.key
  · have sameSlot := (wellFormed.slot_eq_iff otherMember member).mpr sameKey
    simp [sameKey, sameSlot]
  · have otherSlot : property.slot ≠ other.slot := fun same =>
      sameKey ((wellFormed.slot_eq_iff otherMember member).mp same.symm)
    rw [if_neg sameKey, if_neg otherSlot, List.getD_eq_getElem?_getD]

theorem view_set {key : PropertyKey} {property : Property}
    (found : layout.find? key = some property) (slot : Slot) :
    layout.view (slots.set property.slot slot) =
      (layout.view slots).change key fun entry => { entry with slot := slot } := by
  obtain ⟨member, rfl⟩ := mem_of_find? found
  simp only [view, PropertyMap.change, List.map_map, PropertyMap.mk.injEq, and_true]
  apply List.map_congr_left
  intro other otherMember
  rw [getD_set wellFormed fits member otherMember]
  simp only [Function.comp]
  split <;> rfl

theorem fits_set {key : PropertyKey} {property : Property}
    (found : layout.find? key = some property) {slot : Slot}
    (kind_eq : slot.kind = property.kind) :
    layout.Fits (slots.set property.slot slot) := by
  obtain ⟨member, rfl⟩ := mem_of_find? found
  refine ⟨by rw [List.length_set, fits.length_eq], ?_⟩
  intro other otherMember
  rw [getD_set wellFormed fits member otherMember]
  split
  · rename_i sameKey
    rw [wellFormed.eq_of_key_eq otherMember member sameKey]
    exact kind_eq
  · exact fits.kind_eq other otherMember

theorem view_add {key : PropertyKey} (absent : layout.find? key = none)
    (attributes : Attributes) (slot : Slot) :
    (layout.apply (.add key attributes slot.kind)).view (slots ++ [slot]) =
      { layout.view slots with
        entries := (layout.view slots).entries ++ [⟨key, attributes, slot⟩] } := by
  have extensible : (layout.apply (.add key attributes slot.kind)).extensible =
      layout.extensible := rfl
  simp only [view, apply_add_properties absent, extensible, List.map_append,
    List.map_singleton, PropertyMap.mk.injEq, and_true]
  congr 1
  · apply List.map_congr_left
    intro property member
    have inRange : property.slot < slots.length := by
      rw [fits.length_eq]
      exact wellFormed.slot_lt member
    simp [List.getElem?_append_left inRange]
  · simp [wellFormed.slotCount_eq, ← fits.length_eq]

theorem fits_add {key : PropertyKey} (absent : layout.find? key = none)
    (attributes : Attributes) (slot : Slot) :
    (layout.apply (.add key attributes slot.kind)).Fits (slots ++ [slot]) := by
  refine ⟨?_, ?_⟩
  · simp [count, apply_add_properties absent, fits.length_eq]
  · intro property member
    rw [apply_add_properties absent, List.mem_append] at member
    rcases member with old | new
    · have inRange : property.slot < slots.length := by
        rw [fits.length_eq]
        exact wellFormed.slot_lt old
      have oldKind := fits.kind_eq property old
      simpa [List.getElem?_append_left inRange] using oldKind
    · rw [List.mem_singleton] at new
      subst new
      simp [wellFormed.slotCount_eq, ← fits.length_eq]

omit fits in
/-- A removed property leaves the others in place, and their slots follow. -/
private theorem getD_eraseIdx {removed position : Nat}
    (inRange : position < (layout.properties.eraseIdx removed).length) :
    (slots.eraseIdx removed).getD position default =
      slots.getD (layout.properties.eraseIdx removed)[position].slot default := by
  rw [List.getD_eq_getElem?_getD, List.getElem?_eraseIdx, List.getElem_eraseIdx]
  split <;> rw [wellFormed.slot_getElem, List.getD_eq_getElem?_getD]

theorem fits_remove {key : PropertyKey} {property : Property}
    (found : layout.find? key = some property) :
    (layout.apply (.remove key)).Fits (slots.eraseIdx property.slot) := by
  have inRange : property.slot < slots.length := by
    rw [fits.length_eq]
    exact wellFormed.slot_lt (mem_of_find? found).1
  have shorter := filter_eq_eraseIdx wellFormed found
  refine ⟨?_, ?_⟩
  · simp only [apply, count, List.length_mapIdx, shorter, List.length_eraseIdx,
      fits.length_eq]
  · intro other otherMember
    simp only [apply, shorter] at otherMember
    obtain ⟨position, positionRange, rfl⟩ := List.mem_mapIdx.mp otherMember
    rw [getD_eraseIdx wellFormed positionRange]
    have kept := (List.eraseIdx_sublist layout.properties property.slot).subset
      (List.getElem_mem positionRange)
    exact fits.kind_eq _ kept

omit fits in
theorem view_remove {key : PropertyKey} {property : Property}
    (found : layout.find? key = some property) :
    (layout.apply (.remove key)).view (slots.eraseIdx property.slot) =
      (layout.view slots).remove key := by
  simp only [view, PropertyMap.remove, List.filter_map, PropertyMap.mk.injEq]
  refine ⟨?_, rfl⟩
  have sameTest : ((fun entry : MapEntry => decide (entry.key ≠ key)) ∘
      fun property : Property => MapEntry.mk property.key property.attributes
        (slots.getD property.slot default)) = fun property => decide (property.key ≠ key) :=
    rfl
  rw [sameTest, filter_eq_eraseIdx wellFormed found]
  simp only [apply, filter_eq_eraseIdx wellFormed found]
  apply List.ext_getElem
  · simp
  · intro position leftRange rightRange
    have inRange : position < (layout.properties.eraseIdx property.slot).length := by
      simpa using rightRange
    simp only [List.getElem_map, List.getElem_mapIdx]
    rw [getD_eraseIdx wellFormed inRange]

/-- A property given new attributes and a new slot, which may be of another kind. -/
theorem view_reconfigure {key : PropertyKey} {property : Property}
    (found : layout.find? key = some property) (attributes : Attributes) (slot : Slot) :
    (layout.apply (.reconfigure key attributes slot.kind)).view
        (slots.set property.slot slot) =
      (layout.view slots).change key fun entry =>
        { entry with attributes := attributes, slot := slot } := by
  obtain ⟨member, rfl⟩ := mem_of_find? found
  simp only [view, apply, PropertyMap.change, List.map_map, PropertyMap.mk.injEq, and_true]
  apply List.map_congr_left
  intro other otherMember
  have content := getD_set wellFormed fits member otherMember slot
  simp only [Function.comp]
  split
  · rename_i sameKey
    rw [content, if_pos sameKey]
  · rename_i otherKey
    rw [content, if_neg otherKey]

theorem fits_reconfigure {key : PropertyKey} {property : Property}
    (found : layout.find? key = some property) (attributes : Attributes) (slot : Slot) :
    (layout.apply (.reconfigure key attributes slot.kind)).Fits
      (slots.set property.slot slot) := by
  obtain ⟨member, rfl⟩ := mem_of_find? found
  refine ⟨by simp [apply, count, fits.length_eq], ?_⟩
  intro result resultMember
  obtain ⟨other, otherMember, rfl⟩ := List.mem_map.mp resultMember
  have content := getD_set wellFormed fits member otherMember slot
  split
  · rename_i sameKey
    rw [content, if_pos sameKey]
  · rename_i otherKey
    rw [content, if_neg otherKey]
    exact fits.kind_eq other otherMember

omit wellFormed in
theorem view_protect (level : Integrity) :
    (layout.apply (.protect level)).view slots = (layout.view slots).protect level := by
  have entries : ∀ property ∈ layout.properties,
      MapEntry.mk property.key (property.attributes.protect level property.kind)
          (slots.getD property.slot default) =
        MapEntry.mk property.key (property.attributes.protect level
          (slots.getD property.slot default).kind) (slots.getD property.slot default) := by
    intro property member
    rw [fits.kind_eq property member]
  cases level <;>
    simp only [view, PropertyMap.protect, List.map_map, PropertyMap.mk.injEq] <;>
    exact ⟨(List.map_map ..).trans (List.map_congr_left entries), rfl⟩

omit wellFormed in
theorem fits_protect (level : Integrity) :
    (layout.apply (.protect level)).Fits slots := by
  cases level <;>
  · refine ⟨by simp [apply, Transition.protect, protectAll, count, fits.length_eq], ?_⟩
    intro result resultMember
    obtain ⟨property, member, rfl⟩ := List.mem_map.mp resultMember
    exact fits.kind_eq property member

/-! ### Steps that may be left out -/

theorem view_after_add {key : PropertyKey} (absent : layout.find? key = none)
    (attributes : Attributes) (slot : Slot) :
    (layout.after (.add key attributes slot.kind)).view (slots ++ [slot]) =
        { layout.view slots with
          entries := (layout.view slots).entries ++ [⟨key, attributes, slot⟩] } ∧
      (layout.after (.add key attributes slot.kind)).Fits (slots ++ [slot]) :=
  ⟨view_add wellFormed fits absent attributes slot,
    fits_add wellFormed fits absent attributes slot⟩

theorem view_after_remove {key : PropertyKey} {property : Property}
    (found : layout.find? key = some property) :
    (layout.after (.remove key)).view (slots.eraseIdx property.slot) =
        (layout.view slots).remove key ∧
      (layout.after (.remove key)).Fits (slots.eraseIdx property.slot) :=
  ⟨view_remove wellFormed found, fits_remove wellFormed fits found⟩

theorem view_after_reconfigure {key : PropertyKey} {property : Property}
    (found : layout.find? key = some property) (attributes : Attributes) (slot : Slot) :
    (layout.after (.reconfigure key attributes slot.kind)).view
          (slots.set property.slot slot) =
        ((layout.view slots).change key fun entry =>
          { entry with attributes := attributes, slot := slot }) ∧
      (layout.after (.reconfigure key attributes slot.kind)).Fits
        (slots.set property.slot slot) := by
  unfold after
  split
  · rename_i unchanged
    simp only [isUnchangedBy, found, Option.any_some, Bool.and_eq_true,
      decide_eq_true_eq] at unchanged
    refine ⟨?_, fits_set wellFormed fits found unchanged.2.symm⟩
    rw [view_set wellFormed fits found]
    simp only [PropertyMap.change, PropertyMap.mk.injEq, and_true]
    -- the attributes of the one entry that changes are the new ones already
    apply List.map_congr_left
    intro entry entryMember
    split
    · rename_i sameKey
      obtain ⟨member, propertyKey⟩ := mem_of_find? found
      obtain ⟨other, otherMember, rfl⟩ := List.mem_map.mp entryMember
      have same := wellFormed.eq_of_key_eq otherMember member
        (sameKey.trans propertyKey.symm)
      simp [same, unchanged.1]
    · rfl
  · exact ⟨view_reconfigure wellFormed fits found attributes slot,
      fits_reconfigure wellFormed fits found attributes slot⟩

omit wellFormed in
theorem view_after_preventExtensions :
    (layout.after .preventExtensions).view slots = (layout.view slots).close ∧
      (layout.after .preventExtensions).Fits slots := by
  unfold after
  split
  · rename_i unchanged
    simp only [isUnchangedBy, Bool.not_eq_true'] at unchanged
    exact ⟨by simp [view, PropertyMap.close, unchanged], fits⟩
  · exact ⟨rfl, ⟨fits.length_eq, fits.kind_eq⟩⟩

theorem view_after_seal :
    (layout.after .seal).view slots = (layout.view slots).protect .sealed ∧
      (layout.after .seal).Fits slots := by
  unfold after
  split
  · rename_i unchanged
    refine ⟨?_, fits⟩
    simp only [view, PropertyMap.protect, List.map_map, PropertyMap.mk.injEq, and_true]
    apply List.map_congr_left
    intro property member
    have fixed := wellFormed.fixedWhenSealed unchanged property member
    simp [Attributes.protect, Attributes.sealed, ← fixed]
  · exact ⟨view_protect fits .sealed, fits_protect fits .sealed⟩

omit wellFormed in
/-- `freeze` is left out exactly where the layout has a frozen flag. -/
theorem view_after_freeze :
    (layout.after .freeze).view slots =
        (if layout.frozen then layout.view slots else (layout.view slots).protect .frozen) ∧
      (layout.after .freeze).Fits slots := by
  by_cases isFrozen : layout.frozen = true
  · have unchanged : layout.isUnchangedBy .freeze = true := isFrozen
    rw [after, if_pos unchanged, if_pos isFrozen]
    exact ⟨rfl, fits⟩
  · have changed : ¬layout.isUnchangedBy .freeze = true := isFrozen
    rw [after, if_neg changed, if_neg isFrozen]
    exact ⟨view_protect fits .frozen, fits_protect fits .frozen⟩

end View

end Layout

end ObjectModel
