import ObjectModel.Heap.Ordinary

/-!
Contract: what a description of a fixed property promises for good.

`Descriptor.Persists` relates a description of a non-configurable property to every
description that may be given of it later. It is transitive, so promises add up along a
run; what `Descriptor.admits` lets pass persists, and so does what is then stored.

Owns: that SameValue is an equivalence.
-/

namespace ObjectModel

/-! ### SameValue -/

namespace Number

theorem same_iff (left right : Number) :
    left.same right = true ↔
      (left.isNaN = true ∧ right.isNaN = true) ∨
        (left.isNaN = false ∧ right.isNaN = false ∧
          (left = right ∨ (left.isZero = true ∧ right.isZero = true)) ∧
          left.isNegative = right.isNegative) := by
  simp only [same, ieeeEquals, Bool.or_eq_true, Bool.and_eq_true, Bool.not_eq_true',
    decide_eq_true_eq, and_assoc]

theorem same_refl (number : Number) : number.same number = true := by
  rw [same_iff]
  cases number.isNaN with
  | true => exact .inl ⟨rfl, rfl⟩
  | false => exact .inr ⟨rfl, rfl, .inl rfl, rfl⟩

theorem same_symm {left right : Number} (same : left.same right = true) :
    right.same left = true := by
  rw [same_iff] at same ⊢
  rcases same with ⟨leftNaN, rightNaN⟩ | ⟨leftNumber, rightNumber, equal, sign⟩
  · exact .inl ⟨rightNaN, leftNaN⟩
  · exact .inr ⟨rightNumber, leftNumber, equal.imp Eq.symm And.symm, sign.symm⟩

theorem same_trans {first second third : Number} (left : first.same second = true)
    (right : second.same third = true) : first.same third = true := by
  rw [same_iff] at left right ⊢
  rcases left with ⟨firstNaN, secondNaN⟩ | ⟨firstNumber, secondNumber, equal, sign⟩
  · rcases right with ⟨-, thirdNaN⟩ | ⟨secondNumber, -⟩
    · exact .inl ⟨firstNaN, thirdNaN⟩
    · rw [secondNaN] at secondNumber
      contradiction
  · rcases right with ⟨secondNaN, -⟩ | ⟨-, thirdNumber, equal', sign'⟩
    · rw [secondNumber] at secondNaN
      contradiction
    · refine .inr ⟨firstNumber, thirdNumber, ?_, sign.trans sign'⟩
      rcases equal with rfl | ⟨firstZero, secondZero⟩
      · exact equal'
      · rcases equal' with rfl | ⟨-, thirdZero⟩
        · exact .inr ⟨firstZero, secondZero⟩
        · exact .inr ⟨firstZero, thirdZero⟩

end Number

namespace Value

theorem same_refl (value : Value) : value.same value = true := by
  cases value <;> simp [same, Number.same_refl]

/-- Values that are not numbers are the same only if they are equal. -/
theorem same_cases {left right : Value} (same : left.same right = true) :
    left = right ∨ ∃ first second : Number,
      left = .number first ∧ right = .number second ∧ first.same second = true := by
  cases left <;> cases right <;> simp_all [Value.same]

theorem same_symm {left right : Value} (same : left.same right = true) :
    right.same left = true := by
  rcases same_cases same with rfl | ⟨first, second, rfl, rfl, numbers⟩
  · exact same
  · exact Number.same_symm numbers

theorem same_trans {first second third : Value} (left : first.same second = true)
    (right : second.same third = true) : first.same third = true := by
  rcases same_cases left with rfl | ⟨low, middle, rfl, rfl, numbers⟩
  · exact right
  · rcases same_cases right with rfl | ⟨_, high, isMiddle, rfl, numbers'⟩
    · exact left
    · cases isMiddle
      exact Number.same_trans numbers numbers'

/-- The same object is meant by values that are the same. -/
theorem object?_eq_of_same {left right : Value} (same : left.same right = true) :
    left.object? = right.object? := by
  rcases same_cases same with rfl | ⟨first, second, rfl, rfl, -⟩ <;> rfl

end Value

namespace Descriptor

/-! ### What persists -/

/-- `after` may describe a property that was fixed as `before` describes it: it is still
not configurable, it is enumerated as before and of the same kind with the same getter and
setter, and if it was not writable it has the value that it had. -/
structure Persists (before after : Descriptor) : Prop where
  configurable : after.isConfigurable = false
  enumerable : after.isEnumerable = before.isEnumerable
  isAccessor : after.isAccessor = before.isAccessor
  isData : after.isData = before.isData
  getter : after.getter? = before.getter?
  setter : after.setter? = before.setter?
  writable : before.isWritable = false → after.isWritable = false
  value : before.isData = true → before.isWritable = false →
    (after.value.getD .undefined).same (before.value.getD .undefined) = true

theorem Persists.refl {descriptor : Descriptor}
    (fixed : descriptor.isConfigurable = false) : descriptor.Persists descriptor :=
  ⟨fixed, rfl, rfl, rfl, rfl, rfl, id, fun _ _ => Value.same_refl _⟩

theorem Persists.trans {first second third : Descriptor} (earlier : first.Persists second)
    (later : second.Persists third) : first.Persists third where
  configurable := later.configurable
  enumerable := later.enumerable.trans earlier.enumerable
  isAccessor := later.isAccessor.trans earlier.isAccessor
  isData := later.isData.trans earlier.isData
  getter := later.getter.trans earlier.getter
  setter := later.setter.trans earlier.setter
  writable := fun readOnly => later.writable (earlier.writable readOnly)
  value := fun isData readOnly =>
    Value.same_trans (later.value (earlier.isData.trans isData) (earlier.writable readOnly))
      (earlier.value isData readOnly)

/-! ### What a check lets pass -/

/-- A full description of a property: every field of one kind, and no other. -/
inductive IsFull : Descriptor → Prop
  | data (value : Value) (attributes : Attributes) : IsFull (.data value attributes)
  | accessor (getter setter : Value) (enumerable configurable : Bool) :
      IsFull { get := some getter, set := some setter
               enumerable := some enumerable, configurable := some configurable }

theorem isFull_ofStored (attributes : Attributes) (slot : Slot) :
    (ofStored attributes slot).IsFull := by
  cases slot with
  | data value => exact .data value attributes
  | accessor getter setter => exact .accessor _ _ _ _

theorem isFull_complete {descriptor : Descriptor} (notMixed : descriptor.isMixed = false) :
    descriptor.complete.IsFull := by
  obtain ⟨value, writable, get, set, enumerable, configurable⟩ := descriptor
  by_cases isData : (Descriptor.isGeneric ⟨value, writable, get, set, enumerable, configurable⟩ ||
      Descriptor.isData ⟨value, writable, get, set, enumerable, configurable⟩) = true
  · have noAccessor : get = none ∧ set = none := by
      cases value <;> cases writable <;> cases get <;> cases set <;>
        simp_all [isMixed, isGeneric, Descriptor.isData, Descriptor.isAccessor]
    obtain ⟨rfl, rfl⟩ := noAccessor
    simp only [complete, if_pos isData]
    exact .data _ ⟨_, _, _⟩
  · have noData : value = none ∧ writable = none := by
      cases value <;> cases writable <;> simp_all [isGeneric, Descriptor.isData]
    obtain ⟨rfl, rfl⟩ := noData
    simp only [complete, if_neg isData]
    exact .accessor _ _ _ _

/-- Full descriptions of fixed properties that may follow each other: of one kind, and
equal but for what a writable property leaves open. -/
inductive Agrees : Descriptor → Descriptor → Prop
  | data (value value' : Value) (writable writable' enumerable : Bool)
      (kept : writable = true ∨ (writable' = false ∧ value'.same value = true)) :
      Agrees (.data value ⟨writable, enumerable, false⟩)
        (.data value' ⟨writable', enumerable, false⟩)
  | accessor (getter getter' setter setter' : Value) (enumerable : Bool)
      (sameGetter : getter'.same getter = true) (sameSetter : setter'.same setter = true) :
      Agrees
        { get := some getter, set := some setter
          enumerable := some enumerable, configurable := some false }
        { get := some getter', set := some setter'
          enumerable := some enumerable, configurable := some false }

theorem agrees_of_admits {current result : Descriptor} (currentFull : current.IsFull)
    (resultFull : result.IsFull) (fixed : current.isConfigurable = false)
    (admitted : current.admits result = true) : current.Agrees result := by
  cases currentFull with
  | data value attributes =>
      obtain ⟨writable, enumerable, configurable⟩ := attributes
      have notConfigurable : configurable = false := fixed
      subst notConfigurable
      cases resultFull with
      | data value' attributes' =>
          obtain ⟨writable', enumerable', configurable'⟩ := attributes'
          have facts : (configurable' = false ∧ decide (enumerable' = enumerable) = true) ∧
              (writable = true ∨ (writable' = false ∧ value'.same value = true)) := by
            simp [Descriptor.data, admits, isConfigurable, isEnumerable, isGeneric, isData,
              isAccessor, isWritable, sameField] at admitted
            exact admitted
          obtain ⟨⟨rfl, sameEnumerable⟩, kept⟩ := facts
          cases of_decide_eq_true sameEnumerable
          exact .data value value' writable writable' _ kept
      | accessor getter setter enumerable' configurable' =>
          simp [Descriptor.data, admits, isConfigurable, isGeneric, isData, isAccessor]
            at admitted
  | accessor getter setter enumerable configurable =>
      have notConfigurable : configurable = false := fixed
      subst notConfigurable
      cases resultFull with
      | data value attributes =>
          simp [Descriptor.data, admits, isConfigurable, isGeneric, isData, isAccessor]
            at admitted
      | accessor getter' setter' enumerable' configurable' =>
          have facts : (configurable' = false ∧ decide (enumerable' = enumerable) = true) ∧
              getter'.same getter = true ∧ setter'.same setter = true := by
            simp [admits, isConfigurable, isEnumerable, isGeneric, isData, isAccessor,
              sameField] at admitted
            exact admitted
          obtain ⟨⟨rfl, sameEnumerable⟩, sameGetter, sameSetter⟩ := facts
          cases of_decide_eq_true sameEnumerable
          exact .accessor getter getter' setter setter' _ sameGetter sameSetter

/-- Whatever a fixed property admits as a full description of itself persists. -/
theorem Agrees.persists {current result : Descriptor} (agrees : current.Agrees result) :
    current.Persists result := by
  cases agrees with
  | data value value' writable writable' enumerable kept =>
      refine ⟨rfl, rfl, rfl, rfl, rfl, rfl, ?_, ?_⟩
      · intro readOnly
        have notWritable : writable = false := readOnly
        rw [notWritable] at kept
        exact (kept.resolve_left Bool.false_ne_true).1
      · intro _ readOnly
        have notWritable : writable = false := readOnly
        rw [notWritable] at kept
        exact (kept.resolve_left Bool.false_ne_true).2
  | accessor getter getter' setter setter' enumerable sameGetter sameSetter =>
      refine ⟨rfl, rfl, rfl, rfl, Value.object?_eq_of_same sameGetter,
        Value.object?_eq_of_same sameSetter, fun _ => rfl, ?_⟩
      intro isData
      contradiction

/-- A description that calls nothing read-only that is writable promises no more than the
property keeps. -/
theorem Agrees.persists_symm {current result : Descriptor} (agrees : current.Agrees result)
    (kept : ¬(result.writable = some false ∧ current.isWritable = true)) :
    result.Persists current := by
  cases agrees with
  | data value value' writable writable' enumerable sameValue =>
      have readOnly : writable' = false → writable = false := by
        intro notWritable
        subst notWritable
        simpa [Descriptor.data, isWritable] using kept
      refine ⟨rfl, rfl, rfl, rfl, rfl, rfl, readOnly, ?_⟩
      intro _ notWritable
      rw [readOnly notWritable] at sameValue
      exact Value.same_symm (sameValue.resolve_left Bool.false_ne_true).2
  | accessor getter getter' setter setter' enumerable sameGetter sameSetter =>
      refine ⟨rfl, rfl, rfl, rfl, (Value.object?_eq_of_same sameGetter).symm,
        (Value.object?_eq_of_same sameSetter).symm, fun _ => rfl, ?_⟩
      intro isData
      contradiction

/-! ### What an accepted change stores -/

private theorem ofObjectOrUndefined_of_accessorFunction {callable : ObjectId → Bool}
    {role : AccessorRole} {value : Value} {function : Option ObjectId}
    (accepted : accessorFunction callable role value = .ok function) :
    .ofObjectOrUndefined function = value := by
  cases value with
  | undefined =>
      cases accepted
      rfl
  | object id =>
      simp only [accessorFunction] at accepted
      split at accepted
      · cases accepted
        rfl
      · contradiction
  | _ => contradiction

theorem bind_eq_ok {ε α β : Type} {first : Except ε α} {next : α → Except ε β}
    {result : β} (succeeds : first >>= next = .ok result) :
    ∃ middle, first = .ok middle ∧ next middle = .ok result := by
  cases first with
  | error fault => contradiction
  | ok middle => exact ⟨middle, rfl, succeeds⟩

/-- The function that a field names, or the old one if the field is absent. -/
def accessorField (callable : ObjectId → Bool) (role : AccessorRole)
    (field : Option Value) (old : Option ObjectId) : Except TypeFault (Option ObjectId) :=
  match field with
  | some value => accessorFunction callable role value
  | none => .ok old

theorem accessorField_spec {callable : ObjectId → Bool} {role : AccessorRole}
    {field : Option Value} {old function : Option ObjectId}
    (taken : accessorField callable role field old = .ok function) :
    .ofObjectOrUndefined function = field.getD (.ofObjectOrUndefined old) := by
  cases field with
  | none =>
      cases taken
      rfl
  | some value => exact ofObjectOrUndefined_of_accessorFunction taken

theorem accessorSlot_eq (callable : ObjectId → Bool) (change : Descriptor)
    (current : Option Descriptor) :
    change.accessorSlot callable current =
      (accessorField callable .getter change.get (current.bind getter?) >>= fun getter =>
        accessorField callable .setter change.set (current.bind setter?) >>= fun setter =>
          .ok (.accessor getter setter)) := by
  obtain ⟨value, writable, get, set, enumerable, configurable⟩ := change
  cases get <;> cases set <;> rfl

/-- What is stored was created, or merged into the property that there was. -/
theorem stored?_eq_ok {callable : ObjectId → Bool} {current : Option Descriptor}
    {change : Descriptor} {stored : Attributes × Slot}
    (taken : change.stored? callable current = .ok (some stored)) :
    match current with
    | none => change.create callable = .ok stored
    | some current => current.merge callable change = .ok stored := by
  have ok_of_map : ∀ {result : Except TypeFault (Attributes × Slot)},
      result.map some = .ok (some stored) → result = .ok stored := by
    intro result mapped
    cases result with
    | error fault => contradiction
    | ok pair =>
        cases mapped
        rfl
  cases current with
  | none => exact ok_of_map taken
  | some current =>
      simp only [stored?] at taken
      split at taken
      · cases taken
      · exact ok_of_map taken

/-- The fields that every accepted change of a fixed property leaves as they are. -/
private theorem getD_of_fixed {change : Descriptor} {enumerable : Bool}
    (notMade : ¬change.configurable = some true)
    (kept : change.enumerable.all (fun value => decide (value = enumerable)) = true) :
    change.configurable.getD false = false ∧ change.enumerable.getD enumerable = enumerable := by
  obtain ⟨_, _, _, _, new, configurable⟩ := change
  constructor
  · cases configurable with
    | none => rfl
    | some value =>
        cases value with
        | false => rfl
        | true => exact absurd rfl notMade
  · cases new with
    | none => rfl
    | some value => exact of_decide_eq_true kept

private theorem agrees_merge_data {callable : ObjectId → Bool} {attributes attributes' : Attributes}
    {value : Value} {slot' : Slot} {change : Descriptor}
    (fixed : attributes.configurable = false)
    (admitted : (Descriptor.data value attributes).admits change = true)
    (merged : (Descriptor.data value attributes).merge callable change =
      .ok (attributes', slot')) :
    (Descriptor.data value attributes).Agrees
      (ofStored (attributes'.stored slot'.kind) slot') := by
  obtain ⟨writable, enumerable, configurable⟩ := attributes
  have notConfigurable : configurable = false := fixed
  subst notConfigurable
  have facts : ¬change.configurable = some true ∧
      change.enumerable.all (fun value => decide (value = enumerable)) = true ∧
      change.get = none ∧ change.set = none ∧
      (writable = true ∨ ¬change.writable = some true ∧
        sameField change.value (some value) = true) := by
    simp [Descriptor.data, admits, isConfigurable, isEnumerable, isGeneric, isData,
      isAccessor, isWritable] at admitted
    obtain ⟨⟨⟨notMade, kept⟩, sameKind⟩, value⟩ := admitted
    have noAccessor := sameKind.elim And.right id
    exact ⟨notMade, kept, noAccessor.1, noAccessor.2, value⟩
  obtain ⟨notMade, kept, noGetter, noSetter, open'⟩ := facts
  obtain ⟨configurable_eq, enumerable_eq⟩ := getD_of_fixed notMade kept
  simp [merge, Descriptor.data, isConfigurable, isEnumerable, isData, isAccessor, isWritable,
    noGetter, noSetter, configurable_eq, enumerable_eq] at merged
  cases merged
  refine .data _ _ _ _ _ ?_
  rcases open' with isWritable | ⟨notMadeWritable, sameValue⟩
  · exact .inl isWritable
  · cases writable with
    | true => exact .inl rfl
    | false =>
        refine .inr ⟨?_, ?_⟩
        · cases new : change.writable with
          | none => rfl
          | some flag =>
              cases flag with
              | false => rfl
              | true => exact absurd new notMadeWritable
        · cases new : change.value with
          | none => exact Value.same_refl value
          | some other =>
              rw [new] at sameValue
              exact sameValue

private theorem agrees_merge_accessor {callable : ObjectId → Bool}
    {attributes attributes' : Attributes} {getter setter : Option ObjectId} {slot' : Slot}
    {change : Descriptor} (notMixed : change.isMixed = false)
    (fixed : attributes.configurable = false)
    (admitted : (ofStored attributes (.accessor getter setter)).admits change = true)
    (merged : (ofStored attributes (.accessor getter setter)).merge callable change =
      .ok (attributes', slot')) :
    (ofStored attributes (.accessor getter setter)).Agrees
      (ofStored (attributes'.stored slot'.kind) slot') := by
  obtain ⟨writable, enumerable, configurable⟩ := attributes
  have notConfigurable : configurable = false := fixed
  subst notConfigurable
  have facts : ¬change.configurable = some true ∧
      change.enumerable.all (fun value => decide (value = enumerable)) = true ∧
      change.isData = false ∧
      sameField change.get (some (.ofObjectOrUndefined getter)) = true ∧
      sameField change.set (some (.ofObjectOrUndefined setter)) = true := by
    simp [ofStored, Descriptor.accessor, admits, isConfigurable, isEnumerable, isGeneric,
      isAccessor] at admitted
    obtain ⟨⟨⟨notMade, kept⟩, sameKind⟩, sameGetter, sameSetter⟩ := admitted
    refine ⟨notMade, kept, ?_, sameGetter, sameSetter⟩
    rcases sameKind with ⟨noData, -⟩ | hasField
    · exact noData
    · have isAccessor : change.isAccessor = true := by
        simpa [Descriptor.isAccessor] using hasField
      simpa only [isMixed, isAccessor, Bool.and_true] using notMixed
  obtain ⟨notMade, kept, noData, sameGetter, sameSetter⟩ := facts
  obtain ⟨configurable_eq, enumerable_eq⟩ := getD_of_fixed notMade kept
  have currentData : (ofStored ⟨writable, enumerable, false⟩
      (.accessor getter setter)).isData = false := rfl
  have currentAccessor : (ofStored ⟨writable, enumerable, false⟩
      (.accessor getter setter)).isAccessor = true := rfl
  simp only [merge, currentData, currentAccessor, noData, Bool.false_and, Bool.and_false,
    Bool.false_eq_true, if_false, if_true] at merged
  obtain ⟨slot, taken, made⟩ := bind_eq_ok merged
  cases made
  rw [accessorSlot_eq] at taken
  obtain ⟨getter', getterTaken, rest⟩ := bind_eq_ok taken
  obtain ⟨setter', setterTaken, slotMade⟩ := bind_eq_ok rest
  cases slotMade
  have same : ∀ (field : Option Value) (old : Option ObjectId),
      sameField field (some (.ofObjectOrUndefined old)) = true →
        (field.getD (.ofObjectOrUndefined old)).same (.ofObjectOrUndefined old) = true := by
    intro field old admittedField
    cases field with
    | none => exact Value.same_refl _
    | some value => exact admittedField
  have getter_eq : (some (ofStored ⟨writable, enumerable, false⟩
      (.accessor getter setter))).bind getter? = getter := by
    cases getter <;> rfl
  have setter_eq : (some (ofStored ⟨writable, enumerable, false⟩
      (.accessor getter setter))).bind setter? = setter := by
    cases setter <;> rfl
  rw [getter_eq] at getterTaken
  rw [setter_eq] at setterTaken
  have keptGetter := same change.get getter sameGetter
  have keptSetter := same change.set setter sameSetter
  rw [← accessorField_spec getterTaken] at keptGetter
  rw [← accessorField_spec setterTaken] at keptSetter
  have agrees := Agrees.accessor _ _ _ _ enumerable keptGetter keptSetter
  have enumerable_kept : change.enumerable.getD (ofStored ⟨writable, enumerable, false⟩
      (.accessor getter setter)).isEnumerable = enumerable := enumerable_eq
  have configurable_kept : change.configurable.getD (ofStored ⟨writable, enumerable, false⟩
      (.accessor getter setter)).isConfigurable = false := configurable_eq
  rw [enumerable_kept, configurable_kept]
  exact agrees

/-- A fixed property that admits a change still is what it was once the change is
stored. -/
theorem persists_merge {callable : ObjectId → Bool} {attributes attributes' : Attributes}
    {slot slot' : Slot} {change : Descriptor} (notMixed : change.isMixed = false)
    (fixed : attributes.configurable = false)
    (admitted : (ofStored attributes slot).admits change = true)
    (merged : (ofStored attributes slot).merge callable change = .ok (attributes', slot')) :
    (ofStored attributes slot).Persists (ofStored (attributes'.stored slot'.kind) slot') := by
  cases slot with
  | data value => exact (agrees_merge_data fixed admitted merged).persists
  | accessor getter setter =>
      exact (agrees_merge_accessor notMixed fixed admitted merged).persists

end Descriptor

end ObjectModel
