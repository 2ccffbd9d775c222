import Mathlib.Logic.Relation
import ObjectModel.Proofs.Descriptor
import ObjectModel.Proofs.Storage.PropertyMap

/-!
Contract: what may happen to the properties of an object, and what outlasts it.

`PropertyMap.Change` lists the steps that the algorithms of the language take, each with
what was checked before it. `PropertyMap.Preserves` is what every step preserves, and so
every sequence of steps: a map that was closed gets no key, and a property that was fixed
persists.

Does not own: that objects take no other steps.
-/

namespace ObjectModel.PropertyMap

/-- The description of a property. -/
def descriptor? (map : PropertyMap) (key : PropertyKey) : Option Descriptor :=
  (map.find? key).map fun (attributes, slot) => .ofStored attributes slot

/-- One checked step. -/
inductive Change : PropertyMap → PropertyMap → Prop
  | write {map : PropertyMap} {key : PropertyKey} {attributes : Attributes} {old : Value}
      (found : map.find? key = some (attributes, .data old))
      (writable : attributes.writable = true) (value : Value) :
      Change map (map.write key value)
  | add {map : PropertyMap} {key : PropertyKey} (isOpen : map.extensible = true)
      (absent : key ∉ map.keys) (attributes : Attributes) (slot : Slot) :
      Change map (map.add key attributes slot)
  | redefine {map : PropertyMap} {key : PropertyKey} {attributes attributes' : Attributes}
      {slot slot' : Slot} {callable : ObjectId → Bool} {change : Descriptor}
      (found : map.find? key = some (attributes, slot)) (notMixed : change.isMixed = false)
      (admitted : (Descriptor.ofStored attributes slot).admits change = true)
      (merged : (Descriptor.ofStored attributes slot).merge callable change =
        .ok (attributes', slot')) :
      Change map (map.replace key attributes' slot')
  | remove {map : PropertyMap} {key : PropertyKey} {attributes : Attributes} {slot : Slot}
      (found : map.find? key = some (attributes, slot))
      (configurable : attributes.configurable = true) :
      Change map (map.remove key)
  | close (map : PropertyMap) : Change map map.close
  | protect (map : PropertyMap) (level : Integrity) : Change map (map.protect level)

/-- What outlasts every change. -/
structure Preserves (before after : PropertyMap) : Prop where
  closed : before.extensible = false → after.extensible = false
  keys : before.extensible = false → ∀ key ∈ after.keys, key ∈ before.keys
  fixed : ∀ key current, before.descriptor? key = some current →
    current.isConfigurable = false →
      ∃ result, after.descriptor? key = some result ∧ current.Persists result

theorem Preserves.refl (map : PropertyMap) : map.Preserves map where
  closed := id
  keys := fun _ _ member => member
  fixed := fun _ current found notConfigurable => ⟨current, found, .refl notConfigurable⟩

theorem Preserves.trans {first second third : PropertyMap}
    (earlier : first.Preserves second) (later : second.Preserves third) :
    first.Preserves third where
  closed := fun isClosed => later.closed (earlier.closed isClosed)
  keys := fun isClosed key member =>
    earlier.keys isClosed key (later.keys (earlier.closed isClosed) key member)
  fixed := by
    intro key current found notConfigurable
    obtain ⟨middle, middleFound, persists⟩ := earlier.fixed key current found notConfigurable
    obtain ⟨result, resultFound, persists'⟩ :=
      later.fixed key middle middleFound persists.configurable
    exact ⟨result, resultFound, persists.trans persists'⟩

/-! ### One step -/

theorem descriptor?_eq_some {map : PropertyMap} {key : PropertyKey} {current : Descriptor}
    (found : map.descriptor? key = some current) :
    ∃ attributes slot, map.find? key = some (attributes, slot) ∧
      current = .ofStored attributes slot := by
  obtain ⟨⟨attributes, slot⟩, search, rfl⟩ := Option.map_eq_some_iff.mp found
  exact ⟨attributes, slot, search, rfl⟩

theorem isConfigurable_ofStored (attributes : Attributes) (slot : Slot) :
    (Descriptor.ofStored attributes slot).isConfigurable = attributes.configurable := by
  cases slot <;> rfl

/-- A step that keeps the other properties preserves the map if it preserves the one. -/
private theorem preserves_at {before after : PropertyMap} (key : PropertyKey)
    (closed : after.extensible = before.extensible) (keys : after.keys = before.keys)
    (others : ∀ other, other ≠ key → after.find? other = before.find? other)
    (fixed : ∀ attributes slot, before.find? key = some (attributes, slot) →
      attributes.configurable = false →
        ∃ result, after.descriptor? key = some result ∧
          (Descriptor.ofStored attributes slot).Persists result) :
    before.Preserves after where
  closed := fun isClosed => closed.trans isClosed
  keys := fun _ key member => keys ▸ member
  fixed := by
    intro other current found notConfigurable
    by_cases same : other = key
    · subst same
      obtain ⟨attributes, slot, search, rfl⟩ := descriptor?_eq_some found
      rw [isConfigurable_ofStored] at notConfigurable
      exact fixed attributes slot search notConfigurable
    · refine ⟨current, ?_, .refl notConfigurable⟩
      rw [descriptor?, others other same]
      exact found

/-- Protecting a fixed property takes only the writable attribute away. -/
private theorem persists_protect {attributes : Attributes} (slot : Slot) (level : Integrity)
    (fixed : attributes.configurable = false) :
    (Descriptor.ofStored attributes slot).Persists
      (.ofStored (attributes.protect level slot.kind) slot) := by
  obtain ⟨writable, enumerable, configurable⟩ := attributes
  have notConfigurable : configurable = false := fixed
  subst notConfigurable
  apply Descriptor.Agrees.persists
  cases slot with
  | data value =>
      cases level with
      | «sealed» =>
          refine .data value value writable writable enumerable ?_
          cases writable with
          | true => exact .inl rfl
          | false => exact .inr ⟨rfl, Value.same_refl value⟩
      | frozen =>
          exact .data value value writable false enumerable
            (.inr ⟨rfl, Value.same_refl value⟩)
  | accessor getter setter =>
      have same := Descriptor.Agrees.accessor (.ofObjectOrUndefined getter)
        (.ofObjectOrUndefined getter) (.ofObjectOrUndefined setter)
        (.ofObjectOrUndefined setter) enumerable (Value.same_refl _) (Value.same_refl _)
      cases level <;> exact same

/-- A writable property may get another value. -/
private theorem persists_write {attributes : Attributes}
    (writable : attributes.writable = true) (fixed : attributes.configurable = false)
    (old value : Value) :
    (Descriptor.ofStored attributes (.data old)).Persists (.ofStored attributes (.data value)) := by
  obtain ⟨_, enumerable, _⟩ := attributes
  cases writable
  cases fixed
  exact (Descriptor.Agrees.data old value true true enumerable (.inl rfl)).persists

/-- Only a configurable property is removed. -/
private theorem preserves_remove {before : PropertyMap} {key : PropertyKey}
    {attributes : Attributes} {slot : Slot} (found : before.find? key = some (attributes, slot))
    (configurable : attributes.configurable = true) : before.Preserves (before.remove key) := by
  refine ⟨id, ?_, ?_⟩
  · intro _ other member
    obtain ⟨entry, entryMember, rfl⟩ := List.mem_map.mp member
    exact List.mem_map_of_mem (List.mem_filter.mp entryMember).1
  · intro other current search notConfigurable
    have different : other ≠ key := by
      intro same
      rw [same, descriptor?, found] at search
      cases search
      rw [isConfigurable_ofStored, configurable] at notConfigurable
      contradiction
    refine ⟨current, ?_, .refl notConfigurable⟩
    rw [descriptor?, find?_remove, if_neg different]
    exact search

theorem Change.preserves {before after : PropertyMap} (change : Change before after) :
    before.Preserves after := by
  cases change with
  | @write key attributes old found writable value =>
      apply preserves_at key (extensible_write before key value) (keys_write before key value)
      · intro other different
        rw [find?_write, if_neg different]
      · intro attributes' slot search notConfigurable
        rw [found] at search
        cases search
        refine ⟨_, ?_, persists_write writable notConfigurable old value⟩
        rw [descriptor?, find?_write, if_pos rfl, found]
        rfl
  | @add key isOpen absent attributes slot =>
      refine ⟨?_, ?_, ?_⟩
      · intro isClosed
        rw [isOpen] at isClosed
        contradiction
      · intro isClosed
        rw [isOpen] at isClosed
        contradiction
      · intro other current found notConfigurable
        obtain ⟨attributes', slot', search, rfl⟩ := descriptor?_eq_some found
        refine ⟨_, ?_, .refl notConfigurable⟩
        rw [descriptor?, find?_add, search]
        rfl
  | @redefine key attributes attributes' slot slot' callable change found notMixed admitted
      merged =>
      apply preserves_at key (extensible_replace before key attributes' slot')
        (keys_replace before key attributes' slot')
      · intro other different
        rw [find?_replace, if_neg different]
      · intro attributes'' slot'' search notConfigurable
        rw [found] at search
        cases search
        refine ⟨_, ?_, Descriptor.persists_merge notMixed notConfigurable admitted merged⟩
        rw [descriptor?, find?_replace, if_pos rfl, found]
        rfl
  | remove found configurable => exact preserves_remove found configurable
  | close =>
      exact ⟨fun _ => rfl, fun _ _ member => member, fun _ current found notConfigurable =>
        ⟨current, found, .refl notConfigurable⟩⟩
  | protect level =>
      refine ⟨id, ?_, ?_⟩
      · intro _ key member
        rwa [keys_protect] at member
      · intro key current found notConfigurable
        obtain ⟨attributes, slot, search, rfl⟩ := descriptor?_eq_some found
        rw [isConfigurable_ofStored] at notConfigurable
        refine ⟨_, ?_, persists_protect slot level notConfigurable⟩
        rw [descriptor?, find?_protect, search]
        rfl

/-- Whatever steps are taken, in any order. -/
theorem preserves_of_changes {before after : PropertyMap}
    (changes : Relation.ReflTransGen Change before after) : before.Preserves after := by
  induction changes with
  | refl => exact .refl before
  | tail _ change inductionHypothesis => exact inductionHypothesis.trans change.preserves

end ObjectModel.PropertyMap
