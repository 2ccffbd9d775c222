import ObjectModel.Proofs.Descriptor

/-!
Contract: what defining a property means, apart from how it is computed.

`Descriptor.MayDefine` lists the rules by which a property may be defined, and
`Descriptor.overlay` is the description of the property afterwards: the old one overlaid
with the fields of the change. `Descriptor.isCompatible` decides the rules, and
`Descriptor.stored?` computes the overlay or finds an accessor function that cannot be
called.

Does not own: where the result is stored (`Heap.Ordinary`).
-/

namespace ObjectModel

@[simp] theorem Value.object?_ofObjectOrUndefined (function : Option ObjectId) :
    (Value.ofObjectOrUndefined function).object? = function := by
  cases function <;> rfl

namespace Descriptor

/-! ### The rules -/

/-- The rules by which a property that is not configurable may be changed. -/
structure MayChange (current change : Descriptor) : Prop where
  configurable : change.configurable ≠ some true
  enumerable : ∀ flag, change.enumerable = some flag → current.enumerable = some flag
  staysData : change.isData = true → current.isData = true
  staysAccessor : change.isAccessor = true → current.isAccessor = true
  getter : ∀ new old, change.get = some new → current.get = some old → new.same old = true
  setter : ∀ new old, change.set = some new → current.set = some old → new.same old = true
  writable : current.writable = some false → change.writable ≠ some true
  value : current.writable = some false →
    ∀ new old, change.value = some new → current.value = some old → new.same old = true

/-- The rules by which a property may be defined: one that is absent on an extensible
object, one that is configurable in any way, and any other one as `MayChange` says. -/
def MayDefine (extensible : Bool) (change : Descriptor) : Option Descriptor → Prop
  | none => extensible = true
  | some current => current.configurable = some true ∨ current.MayChange change

/-! ### The result -/

/-- Whether a property that `current` describes keeps its kind under a change. -/
def keepsKind (current change : Descriptor) : Bool :=
  change.isGeneric || change.isAccessor = current.isAccessor

/-- A property after a change. The fields of the change lie over those that the property
had. A property that is new has defaults below, and one that changes its kind keeps only
whether it is enumerable and configurable. -/
def overlay (change : Descriptor) : Option Descriptor → Descriptor
  | none => change.complete
  | some current =>
      if current.keepsKind change then
        { value := change.value.or current.value
          writable := change.writable.or current.writable
          get := change.get.or current.get
          set := change.set.or current.set
          enumerable := change.enumerable.or current.enumerable
          configurable := change.configurable.or current.configurable }
      else
        complete
          { change with
            enumerable := change.enumerable.or current.enumerable
            configurable := change.configurable.or current.configurable }

/-- What a getter or setter field may hold: nothing, or something that can be called. -/
def IsAccessorFunction (callable : ObjectId → Bool) (value : Value) : Prop :=
  value = .undefined ∨ ∃ id, value = .object id ∧ callable id = true

/-- The getter and the setter of a change, where present, may be used as such. -/
structure NamesFunctions (callable : ObjectId → Bool) (change : Descriptor) : Prop where
  getter : ∀ value, change.get = some value → IsAccessorFunction callable value
  setter : ∀ value, change.set = some value → IsAccessorFunction callable value

/-! ### Deciding the rules -/

theorem isGeneric_eq (descriptor : Descriptor) :
    descriptor.isGeneric = (!descriptor.isData && !descriptor.isAccessor) := rfl

theorem sameField_iff (new : Option Value) (old : Value) :
    sameField new (some old) = true ↔ ∀ value, new = some value → value.same old = true := by
  cases new <;> simp [sameField]

/-- The check of a fixed data property, field by field. -/
private theorem admits_data (value : Value) (writable enumerable : Bool)
    (change : Descriptor) :
    (Descriptor.data value ⟨writable, enumerable, false⟩).admits change = true ↔
      change.configurable ≠ some true ∧
        (∀ flag, change.enumerable = some flag → flag = enumerable) ∧
        change.isAccessor = false ∧
        (writable = true ∨ change.writable ≠ some true ∧
          ∀ new, change.value = some new → new.same value = true) := by
  have noAccessor : (change.isGeneric || !change.isAccessor) = !change.isAccessor := by
    rw [isGeneric_eq]
    cases change.isAccessor <;> simp
  have current : ∀ attributes, (Descriptor.data value attributes).isAccessor = false :=
    fun _ => rfl
  simp only [admits, isConfigurable, isEnumerable, isWritable, current]
  simp [Descriptor.data, noAccessor, sameField_iff, and_assoc, Option.all_eq_true]

/-- The check of a fixed accessor property, field by field. -/
private theorem admits_accessor (getter setter : Value) (enumerable : Bool)
    {change : Descriptor} (notMixed : change.isMixed = false) :
    (Descriptor.admits
        { get := some getter, set := some setter
          enumerable := some enumerable, configurable := some false } change) = true ↔
      change.configurable ≠ some true ∧
        (∀ flag, change.enumerable = some flag → flag = enumerable) ∧
        change.isData = false ∧
        (∀ new, change.get = some new → new.same getter = true) ∧
        ∀ new, change.set = some new → new.same setter = true := by
  have noData : (change.isGeneric || change.isAccessor) = !change.isData := by
    rw [isMixed] at notMixed
    rw [isGeneric_eq]
    revert notMixed
    cases change.isData <;> cases change.isAccessor <;> decide
  have current : Descriptor.isAccessor
      { get := some getter, set := some setter
        enumerable := some enumerable, configurable := some false } = true := rfl
  simp only [admits, isConfigurable, isEnumerable, current]
  simp [noData, sameField_iff, and_assoc, Option.all_eq_true]

/-- The check decides the rules. -/
theorem admits_iff {current change : Descriptor} (full : current.IsFull)
    (notMixed : change.isMixed = false) :
    current.admits change = true ↔
      current.configurable = some true ∨ current.MayChange change := by
  cases full with
  | data value attributes =>
      obtain ⟨writable, enumerable, configurable⟩ := attributes
      cases configurable with
      | true => exact ⟨fun _ => .inl rfl, fun _ => rfl⟩
      | false =>
          rw [admits_data]
          constructor
          · rintro ⟨fixed, sameEnumerable, noAccessor, kept⟩
            refine .inr ⟨fixed, ?_, fun _ => rfl, ?_, ?_, ?_, ?_, ?_⟩
            · exact fun flag present => congrArg some (sameEnumerable flag present).symm
            · exact fun isAccessor => absurd isAccessor (by rw [noAccessor]; decide)
            · intro new old _ absent
              contradiction
            · intro new old _ absent
              contradiction
            · intro readOnly
              cases readOnly
              exact (kept.resolve_left Bool.false_ne_true).1
            · intro readOnly new old present isOld
              cases readOnly
              cases isOld
              exact (kept.resolve_left Bool.false_ne_true).2 new present
          · rintro (isConfigurable | rules)
            · cases isConfigurable
            · refine ⟨rules.configurable, ?_, ?_, ?_⟩
              · exact fun flag present => (Option.some.inj (rules.enumerable flag present)).symm
              · rw [← Bool.not_eq_true]
                exact fun isAccessor => Bool.false_ne_true (rules.staysAccessor isAccessor)
              · cases writable with
                | true => exact .inl rfl
                | false =>
                    exact .inr ⟨rules.writable rfl,
                      fun new present => rules.value rfl new value present rfl⟩
  | accessor getter setter enumerable configurable =>
      cases configurable with
      | true => exact ⟨fun _ => .inl rfl, fun _ => rfl⟩
      | false =>
          rw [admits_accessor getter setter enumerable notMixed]
          constructor
          · rintro ⟨fixed, sameEnumerable, noData, sameGetter, sameSetter⟩
            refine .inr ⟨fixed, ?_, ?_, fun _ => rfl, ?_, ?_, ?_, ?_⟩
            · exact fun flag present => congrArg some (sameEnumerable flag present).symm
            · exact fun isData => absurd isData (by rw [noData]; decide)
            · intro new old present isOld
              cases isOld
              exact sameGetter new present
            · intro new old present isOld
              cases isOld
              exact sameSetter new present
            · intro absent
              contradiction
            · intro absent
              contradiction
          · rintro (isConfigurable | rules)
            · cases isConfigurable
            · refine ⟨rules.configurable, ?_, ?_, ?_, ?_⟩
              · exact fun flag present => (Option.some.inj (rules.enumerable flag present)).symm
              · rw [← Bool.not_eq_true]
                exact fun isData => Bool.false_ne_true (rules.staysData isData)
              · exact fun new present => rules.getter new getter present rfl
              · exact fun new present => rules.setter new setter present rfl

/-- IsCompatiblePropertyDescriptor decides the rules. -/
theorem isCompatible_iff {current : Option Descriptor} {change : Descriptor}
    (full : ∀ old, current = some old → old.IsFull) (notMixed : change.isMixed = false)
    (key : PropertyKey) (extensible : Bool) :
    change.isCompatible key extensible current = true ↔
      change.MayDefine extensible current := by
  cases current with
  | none => cases extensible <;> simp [isCompatible, refusal?, MayDefine]
  | some old =>
      rw [MayDefine, ← admits_iff (full old rfl) notMixed]
      cases admitted : old.admits change <;> simp [isCompatible, refusal?, admitted]

/-! ### Accessor functions -/

section AccessorFunctions

variable {callable : ObjectId → Bool} {change : Descriptor}

theorem accessorFunction_ok {value : Value} (isFunction : IsAccessorFunction callable value)
    (role : AccessorRole) : ∃ function, accessorFunction callable role value = .ok function := by
  rcases isFunction with rfl | ⟨id, rfl, isCallable⟩
  · exact ⟨none, rfl⟩
  · exact ⟨some id, by rw [accessorFunction, if_pos isCallable]⟩

theorem accessorFunction_error {value : Value}
    (noFunction : ¬IsAccessorFunction callable value) (role : AccessorRole) :
    accessorFunction callable role value = .error (.accessorNotFunction role value) := by
  cases value with
  | undefined => exact absurd (.inl rfl) noFunction
  | object id =>
      have notCallable : ¬callable id = true := fun isCallable =>
        noFunction (.inr ⟨id, rfl, isCallable⟩)
      rw [accessorFunction, if_neg notCallable]
  | _ => rfl

theorem accessorField_ok {field : Option Value}
    (functions : ∀ value, field = some value → IsAccessorFunction callable value)
    (role : AccessorRole) (old : Option ObjectId) :
    ∃ function, accessorField callable role field old = .ok function := by
  cases field with
  | none => exact ⟨old, rfl⟩
  | some value => exact accessorFunction_ok (functions value rfl) role

theorem accessorField_error {field : Option Value}
    (noFunctions : ¬∀ value, field = some value → IsAccessorFunction callable value)
    (role : AccessorRole) (old : Option ObjectId) :
    ∃ value, accessorField callable role field old =
      .error (.accessorNotFunction role value) := by
  cases field with
  | none => exact absurd (fun value absent => by contradiction) noFunctions
  | some value =>
      refine ⟨value, accessorFunction_error ?_ role⟩
      intro isFunction
      apply noFunctions
      rintro _ ⟨⟩
      exact isFunction

theorem accessorSlot_ok (functions : change.NamesFunctions callable)
    (current : Option Descriptor) :
    ∃ slot, change.accessorSlot callable current = .ok slot := by
  obtain ⟨getter, getterTaken⟩ :=
    accessorField_ok functions.getter .getter (current.bind getter?)
  obtain ⟨setter, setterTaken⟩ :=
    accessorField_ok functions.setter .setter (current.bind setter?)
  refine ⟨.accessor getter setter, ?_⟩
  rw [accessorSlot_eq, getterTaken, setterTaken]
  rfl

/-- The first field that holds something else is the one that is complained of. -/
theorem accessorSlot_error (noFunctions : ¬change.NamesFunctions callable)
    (current : Option Descriptor) :
    ∃ role value, change.accessorSlot callable current =
      .error (.accessorNotFunction role value) := by
  rw [accessorSlot_eq]
  by_cases getters : ∀ value, change.get = some value → IsAccessorFunction callable value
  · obtain ⟨getter, getterTaken⟩ := accessorField_ok getters .getter (current.bind getter?)
    obtain ⟨value, setterFails⟩ := accessorField_error
      (fun setters => noFunctions ⟨getters, setters⟩) .setter (current.bind setter?)
    exact ⟨.setter, value, by rw [getterTaken, setterFails]; rfl⟩
  · obtain ⟨value, getterFails⟩ := accessorField_error getters .getter (current.bind getter?)
    exact ⟨.getter, value, by rw [getterFails]; rfl⟩

/-- An accessor slot holds the functions that the change names, and else the old ones. -/
theorem ofStored_accessorSlot {current : Option Descriptor} {slot : Slot}
    (taken : change.accessorSlot callable current = .ok slot) (attributes : Attributes) :
    ofStored (attributes.stored slot.kind) slot =
      { get := some (change.get.getD (.ofObjectOrUndefined (current.bind getter?)))
        set := some (change.set.getD (.ofObjectOrUndefined (current.bind setter?)))
        enumerable := some attributes.enumerable
        configurable := some attributes.configurable } := by
  rw [accessorSlot_eq] at taken
  obtain ⟨getter, getterTaken, rest⟩ := bind_eq_ok taken
  obtain ⟨setter, setterTaken, made⟩ := bind_eq_ok rest
  cases made
  rw [← accessorField_spec getterTaken, ← accessorField_spec setterTaken]
  rfl

end AccessorFunctions

/-! ### Computing the result -/

theorem isAccessor_eq_false {descriptor : Descriptor}
    (noAccessor : descriptor.isAccessor = false) :
    descriptor.get = none ∧ descriptor.set = none := by
  simpa [isAccessor] using noAccessor

theorem isData_eq_false {descriptor : Descriptor} (noData : descriptor.isData = false) :
    descriptor.value = none ∧ descriptor.writable = none := by
  simpa [isData] using noData

/-- A change that names accessor functions has no data fields. -/
theorem isData_of_isAccessor {change : Descriptor} (notMixed : change.isMixed = false)
    (isAccessor : change.isAccessor = true) : change.isData = false := by
  rw [isMixed, isAccessor, Bool.and_true] at notMixed
  exact notMixed

/-- A description without data fields, but with one for an accessor, completed. -/
theorem complete_accessor {descriptor : Descriptor} (noData : descriptor.isData = false)
    (isAccessor : descriptor.isAccessor = true) :
    descriptor.complete =
      { get := some (descriptor.get.getD .undefined)
        set := some (descriptor.set.getD .undefined)
        enumerable := some descriptor.isEnumerable
        configurable := some descriptor.isConfigurable } := by
  obtain ⟨noValue, noWritable⟩ := isData_eq_false noData
  have notCompleted : ¬(descriptor.isGeneric || descriptor.isData) = true := by
    rw [isGeneric_eq, noData, isAccessor]
    decide
  rw [complete, if_neg notCompleted, noValue, noWritable]
  rfl

/-- Any other description completed: it is taken for one of a data property. -/
theorem complete_data {descriptor : Descriptor} (noAccessor : descriptor.isAccessor = false) :
    descriptor.complete =
      .data (descriptor.value.getD .undefined)
        ⟨descriptor.isWritable, descriptor.isEnumerable, descriptor.isConfigurable⟩ := by
  obtain ⟨noGetter, noSetter⟩ := isAccessor_eq_false noAccessor
  have completed : (descriptor.isGeneric || descriptor.isData) = true := by
    rw [isGeneric_eq, noAccessor]
    cases descriptor.isData <;> rfl
  rw [complete, if_pos completed, noGetter, noSetter]
  rfl

/-- A full description has nothing to complete. -/
theorem IsFull.complete_eq {descriptor : Descriptor} (full : descriptor.IsFull) :
    descriptor.complete = descriptor := by
  cases full with
  | data value attributes => rfl
  | accessor getter setter enumerable configurable => rfl

section Stored

variable {callable : ObjectId → Bool} {change : Descriptor} {attributes : Attributes}
  {slot : Slot}

/-- What is stored for a new property is the completed description. -/
theorem ofStored_create (notMixed : change.isMixed = false)
    (created : change.create callable = .ok (attributes, slot)) :
    ofStored (attributes.stored slot.kind) slot = change.complete := by
  unfold create at created
  cases isAccessor : change.isAccessor with
  | true =>
      rw [if_pos isAccessor] at created
      obtain ⟨slot', taken, made⟩ := bind_eq_ok created
      cases made
      rw [ofStored_accessorSlot taken,
        complete_accessor (isData_of_isAccessor notMixed isAccessor) isAccessor]
      rfl
  | false =>
      rw [if_neg (by rw [isAccessor]; decide)] at created
      cases created
      rw [complete_data isAccessor]
      rfl

/-- What is stored for an existing property is the change laid over it. -/
theorem ofStored_merge {old : Attributes} {oldSlot : Slot} (notMixed : change.isMixed = false)
    (merged : (ofStored old oldSlot).merge callable change = .ok (attributes, slot)) :
    ofStored (attributes.stored slot.kind) slot =
      change.overlay (some (ofStored old oldSlot)) := by
  unfold merge at merged
  cases oldSlot with
  | data value =>
      have oldData : (ofStored old (.data value)).isData = true := rfl
      have oldAccessor : (ofStored old (.data value)).isAccessor = false := rfl
      cases isAccessor : change.isAccessor with
      | true =>
          -- the property becomes an accessor
          have noData := isData_of_isAccessor notMixed isAccessor
          have changes : ¬(ofStored old (.data value)).keepsKind change = true := by
            rw [keepsKind, isGeneric_eq, noData, isAccessor, oldAccessor]
            decide
          simp only [oldData, isAccessor, Bool.and_self, if_true] at merged
          obtain ⟨slot', taken, made⟩ := bind_eq_ok merged
          cases made
          rw [ofStored_accessorSlot taken, overlay, if_neg changes, complete_accessor]
          · simp [isEnumerable, isConfigurable, ofStored, Descriptor.data]
            exact ⟨rfl, rfl⟩
          · exact noData
          · exact isAccessor
      | false =>
          obtain ⟨noGetter, noSetter⟩ := isAccessor_eq_false isAccessor
          have keeps : (ofStored old (.data value)).keepsKind change = true := by
            rw [keepsKind, isAccessor, oldAccessor]
            exact Bool.or_true _
          simp only [oldData, oldAccessor, isAccessor, Bool.and_false, Bool.false_and,
            Bool.false_eq_true, if_false] at merged
          cases merged
          rw [overlay, if_pos keeps, noGetter, noSetter]
          simp [ofStored, Descriptor.data, isWritable, isEnumerable, isConfigurable,
            Attributes.stored, Slot.kind]
  | accessor getter setter =>
      have oldData : (ofStored old (.accessor getter setter)).isData = false := rfl
      have oldAccessor : (ofStored old (.accessor getter setter)).isAccessor = true := rfl
      cases isData : change.isData with
      | true =>
          -- the property becomes a data property
          have noAccessor : change.isAccessor = false := by
            simpa [isMixed, isData] using notMixed
          have changes : ¬(ofStored old (.accessor getter setter)).keepsKind change = true := by
            rw [keepsKind, isGeneric_eq, isData, noAccessor, oldAccessor]
            decide
          simp only [oldData, oldAccessor, isData, Bool.and_self, Bool.false_and,
            Bool.false_eq_true, if_false, if_true] at merged
          cases merged
          rw [overlay, if_neg changes, complete_data]
          · simp [ofStored, Descriptor.data, Descriptor.accessor, isWritable, isEnumerable,
              isConfigurable, Attributes.stored, Slot.kind]
          · exact noAccessor
      | false =>
          obtain ⟨noValue, noWritable⟩ := isData_eq_false isData
          have keeps : (ofStored old (.accessor getter setter)).keepsKind change = true := by
            rw [keepsKind, isGeneric_eq, isData, oldAccessor]
            cases change.isAccessor <;> rfl
          simp only [oldData, oldAccessor, isData, Bool.and_false, Bool.false_and,
            Bool.false_eq_true, if_false, if_true] at merged
          obtain ⟨slot', taken, made⟩ := bind_eq_ok merged
          cases made
          rw [ofStored_accessorSlot taken, overlay, if_pos keeps, noValue, noWritable]
          simp [ofStored, Descriptor.accessor, isEnumerable, isConfigurable, getter?, setter?]

end Stored

/-! ### What is there already -/

/-- A full description is of one kind. -/
theorem IsFull.isAccessor_eq {descriptor : Descriptor} (full : descriptor.IsFull) :
    descriptor.isAccessor = !descriptor.isData := by
  cases full <;> rfl

/-- Every field of the change is a field of the result. -/
structure Carries (result change : Descriptor) : Prop where
  value : ∀ field, change.value = some field → result.value = some field
  writable : ∀ field, change.writable = some field → result.writable = some field
  get : ∀ field, change.get = some field → result.get = some field
  set : ∀ field, change.set = some field → result.set = some field
  enumerable : ∀ field, change.enumerable = some field → result.enumerable = some field
  configurable : ∀ field, change.configurable = some field → result.configurable = some field

theorem carries_complete (change : Descriptor) : change.complete.Carries change := by
  have kept : ∀ {α : Type} (field : Option α) (default value : α), field = some value →
      some (field.getD default) = some value := by
    rintro α _ default value rfl
    rfl
  unfold complete
  split
  · exact ⟨kept _ _, kept _ _, fun _ => id, fun _ => id, kept _ _, kept _ _⟩
  · exact ⟨fun _ => id, fun _ => id, kept _ _, kept _ _, kept _ _, kept _ _⟩

theorem carries_overlay (change : Descriptor) (current : Option Descriptor) :
    (change.overlay current).Carries change := by
  have kept : ∀ {α : Type} (field old : Option α) (value : α), field = some value →
      field.or old = some value := by
    rintro α _ old value rfl
    rfl
  cases current with
  | none => exact carries_complete change
  | some current =>
      by_cases keeps : current.keepsKind change = true
      · rw [overlay, if_pos keeps]
        exact ⟨kept _ _, kept _ _, kept _ _, kept _ _, kept _ _, kept _ _⟩
      · rw [overlay, if_neg keeps]
        obtain ⟨value, writable, get, set, enumerable, configurable⟩ := carries_complete
          { change with
            enumerable := change.enumerable.or current.enumerable
            configurable := change.configurable.or current.configurable }
        exact ⟨value, writable, get, set,
          fun field present => enumerable field (kept _ _ _ present),
          fun field present => configurable field (kept _ _ _ present)⟩

namespace Carries

variable {result change : Descriptor} (carries : result.Carries change)

include carries

theorem isData (isData : change.isData = true) : result.isData = true := by
  simp only [Descriptor.isData, Bool.or_eq_true, Option.isSome_iff_exists] at isData ⊢
  rcases isData with ⟨field, present⟩ | ⟨field, present⟩
  · exact .inl ⟨field, carries.value field present⟩
  · exact .inr ⟨field, carries.writable field present⟩

theorem isAccessor (isAccessor : change.isAccessor = true) : result.isAccessor = true := by
  simp only [Descriptor.isAccessor, Bool.or_eq_true, Option.isSome_iff_exists] at isAccessor ⊢
  rcases isAccessor with ⟨field, present⟩ | ⟨field, present⟩
  · exact .inl ⟨field, carries.get field present⟩
  · exact .inr ⟨field, carries.set field present⟩

/-- The rules allow a change that is there already. -/
theorem mayDefine (full : result.IsFull) (extensible : Bool) :
    change.MayDefine extensible (some result) := by
  have sameField : ∀ (new old : Value) (field : Option Value), field = some new →
      field = some old → new.same old = true := by
    rintro new old _ rfl ⟨⟩
    exact Value.same_refl new
  have isPresent : ∃ flag, result.configurable = some flag := by
    cases full <;> exact ⟨_, rfl⟩
  obtain ⟨flag, present⟩ := isPresent
  cases flag with
  | true => exact .inl present
  | false =>
      refine .inr ⟨?_, carries.enumerable, carries.isData, carries.isAccessor, ?_, ?_, ?_, ?_⟩
      · intro made
        have other := carries.configurable true made
        rw [present] at other
        contradiction
      · intro new old isNew isOld
        exact sameField new old _ (carries.get new isNew) isOld
      · intro new old isNew isOld
        exact sameField new old _ (carries.set new isNew) isOld
      · intro readOnly made
        have other := carries.writable true made
        rw [readOnly] at other
        contradiction
      · intro _ new old isNew isOld
        exact sameField new old _ (carries.value new isNew) isOld

/-- A change that is there already leaves the property as it is. -/
theorem overlay_eq (full : result.IsFull) :
    change.overlay (some result) = result := by
  have keeps : result.keepsKind change = true := by
    rw [keepsKind, isGeneric_eq]
    cases isAccessor : change.isAccessor with
    | true =>
        rw [carries.isAccessor isAccessor]
        exact Bool.or_true _
    | false =>
        cases isData : change.isData with
        | false => rfl
        | true =>
            rw [full.isAccessor_eq, carries.isData isData]
            rfl
  have covered : ∀ {α : Type} (field old : Option α),
      (∀ value, field = some value → old = some value) → field.or old = old := by
    intro α field old present
    cases field with
    | none => rfl
    | some value => exact (present value rfl).symm
  rw [overlay, if_pos keeps, covered _ _ carries.value, covered _ _ carries.writable,
    covered _ _ carries.get, covered _ _ carries.set, covered _ _ carries.enumerable,
    covered _ _ carries.configurable]

end Carries

/-! ### Whatever the property was -/

section Result

variable {callable : ObjectId → Bool} {change : Descriptor}

theorem isAccessor_of_not_namesFunctions (noFunctions : ¬change.NamesFunctions callable) :
    change.isAccessor = true := by
  cases isAccessor : change.isAccessor with
  | true => rfl
  | false =>
      obtain ⟨noGetter, noSetter⟩ := isAccessor_eq_false isAccessor
      refine absurd ⟨?_, ?_⟩ noFunctions
      · intro value present
        rw [noGetter] at present
        contradiction
      · intro value present
        rw [noSetter] at present
        contradiction

theorem create_ok (functions : change.NamesFunctions callable) :
    ∃ stored, change.create callable = .ok stored := by
  obtain ⟨slot, taken⟩ := accessorSlot_ok functions none
  unfold create
  split
  · rw [taken]
    exact ⟨_, rfl⟩
  · exact ⟨_, rfl⟩

theorem merge_ok (functions : change.NamesFunctions callable) (current : Descriptor) :
    ∃ stored, current.merge callable change = .ok stored := by
  obtain ⟨slot, taken⟩ := accessorSlot_ok functions none
  obtain ⟨slot', taken'⟩ := accessorSlot_ok functions (some current)
  unfold merge
  simp only [taken, taken']
  split
  · exact ⟨_, rfl⟩
  split
  · exact ⟨_, rfl⟩
  split <;> exact ⟨_, rfl⟩

/-- A change that names functions has a result. -/
theorem stored?_ok (functions : change.NamesFunctions callable)
    (current : Option Descriptor) : ∃ stored, change.stored? callable current = .ok stored := by
  cases current with
  | none =>
      obtain ⟨stored, created⟩ := create_ok functions
      exact ⟨some stored, by rw [stored?, created]; rfl⟩
  | some current =>
      obtain ⟨stored, merged⟩ := merge_ok functions current
      rw [stored?]
      split
      · exact ⟨none, rfl⟩
      · exact ⟨some stored, by rw [merged]; rfl⟩

/-- A change that names something else has none. -/
theorem stored?_error (noFunctions : ¬change.NamesFunctions callable)
    (notMixed : change.isMixed = false) {current : Option Descriptor}
    (full : ∀ old, current = some old → old.IsFull) :
    ∃ role value, change.stored? callable current =
      .error (.accessorNotFunction role value) := by
  have isAccessor := isAccessor_of_not_namesFunctions noFunctions
  have noData := isData_of_isAccessor notMixed isAccessor
  cases current with
  | none =>
      obtain ⟨role, value, fails⟩ := accessorSlot_error noFunctions none
      refine ⟨role, value, ?_⟩
      rw [stored?, create, if_pos isAccessor, fails]
      rfl
  | some current =>
      have notEmpty : ¬change.isEmpty = true := by
        rw [isEmpty, isGeneric_eq, isAccessor]
        simp
      rw [stored?, if_neg notEmpty]
      cases isData : current.isData with
      | true =>
          obtain ⟨role, value, fails⟩ := accessorSlot_error noFunctions none
          refine ⟨role, value, ?_⟩
          simp only [merge, isData, isAccessor, fails]
          rfl
      | false =>
          have wasAccessor : current.isAccessor = true := by
            rw [(full current rfl).isAccessor_eq, isData]
            rfl
          obtain ⟨role, value, fails⟩ := accessorSlot_error noFunctions (some current)
          refine ⟨role, value, ?_⟩
          simp only [merge, isData, noData, wasAccessor, fails]
          rfl

/-- Nothing is stored for a change without fields, which leaves a property as it is. -/
theorem overlay_of_stored?_none {old : Option Descriptor}
    (full : ∀ current, old = some current → current.IsFull)
    (stored : change.stored? callable old = .ok none) :
    change.isEmpty = true ∧ old = some (change.overlay old) := by
  cases old with
  | none =>
      rw [stored?] at stored
      cases created : change.create callable <;> rw [created] at stored <;> cases stored
  | some current =>
      have isEmpty : change.isEmpty = true := by
        rw [stored?] at stored
        split at stored
        · assumption
        · cases merged : current.merge callable change <;> rw [merged] at stored <;> cases stored
      refine ⟨isEmpty, congrArg some (Carries.overlay_eq ?_ (full current rfl)).symm⟩
      simp only [Descriptor.isEmpty, isGeneric_eq, Bool.and_eq_true, Bool.not_eq_true',
        Option.isNone_iff_eq_none] at isEmpty
      obtain ⟨⟨⟨noData, noAccessor⟩, noEnumerable⟩, noConfigurable⟩ := isEmpty
      obtain ⟨noValue, noWritable⟩ := isData_eq_false noData
      obtain ⟨noGetter, noSetter⟩ := isAccessor_eq_false noAccessor
      constructor <;> simp [*]

/-- What is stored otherwise is the overlay. -/
theorem ofStored_of_stored? (notMixed : change.isMixed = false) {old : Option Descriptor}
    (described : ∀ current, old = some current →
      ∃ attributes slot, current = ofStored attributes slot)
    {attributes : Attributes} {slot : Slot}
    (stored : change.stored? callable old = .ok (some (attributes, slot))) :
    ofStored (attributes.stored slot.kind) slot = change.overlay old := by
  cases old with
  | none =>
      cases created : change.create callable with
      | error fault =>
          rw [stored?, created] at stored
          contradiction
      | ok pair =>
          rw [stored?, created] at stored
          cases stored
          exact ofStored_create notMixed created
  | some current =>
      obtain ⟨oldAttributes, oldSlot, rfl⟩ := described current rfl
      rw [stored?] at stored
      split at stored
      · cases stored
      · cases merged : (ofStored oldAttributes oldSlot).merge callable change with
        | error fault =>
            rw [merged] at stored
            contradiction
        | ok pair =>
            rw [merged] at stored
            cases stored
            exact ofStored_merge notMixed merged

end Result

/-- A description tells what is stored. -/
theorem stored_inj {attributes attributes' : Attributes} {slot slot' : Slot}
    (same : ofStored (attributes.stored slot.kind) slot =
      ofStored (attributes'.stored slot'.kind) slot') :
    slot = slot' ∧ attributes.stored slot.kind = attributes'.stored slot'.kind := by
  obtain ⟨writable, enumerable, configurable⟩ := attributes
  obtain ⟨writable', enumerable', configurable'⟩ := attributes'
  cases slot with
  | data value =>
      cases slot' with
      | data value' =>
          simp only [ofStored, Descriptor.data, Attributes.stored, Slot.kind, mk.injEq,
            Option.some.injEq] at same
          obtain ⟨rfl, rfl, -, -, rfl, rfl⟩ := same
          exact ⟨rfl, rfl⟩
      | accessor getter' setter' => cases same
  | accessor getter setter =>
      cases slot' with
      | data value' => cases same
      | accessor getter' setter' =>
          simp only [ofStored, Descriptor.accessor, Attributes.stored, Slot.kind, mk.injEq,
            Option.some.injEq] at same
          obtain ⟨-, -, sameGetter, sameSetter, rfl, rfl⟩ := same
          have getter_eq := congrArg Value.object? sameGetter
          have setter_eq := congrArg Value.object? sameSetter
          simp only [Value.object?_ofObjectOrUndefined] at getter_eq setter_eq
          rw [getter_eq, setter_eq]
          exact ⟨rfl, rfl⟩

end Descriptor

end ObjectModel
