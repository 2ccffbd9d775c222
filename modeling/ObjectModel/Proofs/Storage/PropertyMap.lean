import ObjectModel.Property

/-!
Contract: the abstract property store of one object.

A `PropertyMap` lists the properties of an object in creation order, each with its
attributes and its slot, and says whether more may be added. It knows nothing of
shapes, slot numbers or dictionaries; the operations here are what the two kinds of
storage have to agree with.

Owns: the operations on the list, and what a lookup finds after each of them.
-/

namespace ObjectModel

/-- One property of an object: its key, its attributes and what it holds. -/
structure MapEntry where
  key : PropertyKey
  attributes : Attributes
  slot : Slot
deriving DecidableEq

/-- The properties of an object in creation order. -/
structure PropertyMap where
  entries : List MapEntry := []
  extensible : Bool := true
deriving DecidableEq

namespace PropertyMap

/-- The map of a new object. -/
def empty : PropertyMap := {}

def find? (map : PropertyMap) (key : PropertyKey) : Option (Attributes × Slot) :=
  (map.entries.find? (·.key = key)).map fun entry => (entry.attributes, entry.slot)

def keys (map : PropertyMap) : List PropertyKey :=
  map.entries.map (·.key)

def count (map : PropertyMap) : Nat :=
  map.entries.length

/-- Whether there is a data property with this key. -/
def hasData (map : PropertyMap) (key : PropertyKey) : Bool :=
  (map.find? key).any fun (_, slot) => slot.kind = .data

/-- Every entry with this key changed, in its place. -/
def change (map : PropertyMap) (key : PropertyKey) (edit : MapEntry → MapEntry) :
    PropertyMap :=
  { map with
    entries := map.entries.map fun entry => if entry.key = key then edit entry else entry }

/-- The value of a data property replaced. -/
def write (map : PropertyMap) (key : PropertyKey) (value : Value) : PropertyMap :=
  map.change key fun entry =>
    if entry.slot.kind = .data then { entry with slot := .data value } else entry

/-- Attributes and slot of a property replaced, in its place. -/
def replace (map : PropertyMap) (key : PropertyKey) (attributes : Attributes)
    (slot : Slot) : PropertyMap :=
  map.change key fun entry =>
    { entry with attributes := attributes.stored slot.kind, slot := slot }

/-- A property appended. -/
def add (map : PropertyMap) (key : PropertyKey) (attributes : Attributes)
    (slot : Slot) : PropertyMap :=
  { map with entries := map.entries ++ [⟨key, attributes.stored slot.kind, slot⟩] }

/-- A property removed; the others keep their order. -/
def remove (map : PropertyMap) (key : PropertyKey) : PropertyMap :=
  { map with entries := map.entries.filter (·.key ≠ key) }

/-- No property can be added any more. -/
def close (map : PropertyMap) : PropertyMap :=
  { map with extensible := false }

/-- Every property protected to a level. -/
def protect (map : PropertyMap) (level : Integrity) : PropertyMap :=
  { map with
    entries := map.entries.map fun entry =>
      { entry with attributes := entry.attributes.protect level entry.slot.kind } }

/-! ### Lookups -/

theorem find?_eq_none_iff {map : PropertyMap} {key : PropertyKey} :
    map.find? key = none ↔ key ∉ map.keys := by
  simp [find?, keys]

theorem isSome_find?_iff {map : PropertyMap} {key : PropertyKey} :
    (map.find? key).isSome = true ↔ key ∈ map.keys := by
  simp [find?, keys, List.find?_isSome]

/-- An entry is what a lookup of its key finds, when no key is listed twice. -/
theorem find?_of_mem {map : PropertyMap} (keysNodup : map.keys.Nodup)
    {entry : MapEntry} (member : entry ∈ map.entries) :
    map.find? entry.key = some (entry.attributes, entry.slot) := by
  obtain ⟨entries, extensible⟩ := map
  simp only [find?, keys] at *
  induction entries with
  | nil => contradiction
  | cons head rest inductionHypothesis =>
      rw [List.map_cons, List.nodup_cons] at keysNodup
      rcases List.mem_cons.mp member with isHead | inRest
      · subst isHead
        simp
      · have different : head.key ≠ entry.key := by
          intro same
          exact keysNodup.1 (same ▸ List.mem_map_of_mem inRest)
        simpa [List.find?_cons, different] using
          inductionHypothesis keysNodup.2 inRest

/-- A map that keeps every key keeps the place where a lookup ends. -/
private theorem find?_map_keeping (entries : List MapEntry) (key : PropertyKey)
    (edit : MapEntry → MapEntry) (keeps : ∀ entry, (edit entry).key = entry.key) :
    (entries.map edit).find? (·.key = key) =
      (entries.find? (·.key = key)).map edit := by
  rw [List.find?_map]
  congr 2
  funext entry
  simp [keeps]

/-- Looking up the key of a changed entry finds the changed entry, and no other lookup
notices the change. -/
theorem find?_change (map : PropertyMap) (key other : PropertyKey)
    (edit : MapEntry → MapEntry) (keeps : ∀ entry, (edit entry).key = entry.key) :
    (map.change key edit).find? other =
      if other = key then
        (map.entries.find? (·.key = key)).map fun entry =>
          ((edit entry).attributes, (edit entry).slot)
      else map.find? other := by
  simp only [find?, change]
  rw [find?_map_keeping _ _ _ (by intro entry; split <;> simp [keeps]), Option.map_map]
  split
  · rename_i same
    subst same
    apply Option.map_congr
    intro entry search
    have keyEq : entry.key = other := by
      simpa using List.find?_some (Option.mem_def.mp search)
    simp [keyEq]
  · rename_i different
    apply Option.map_congr
    intro entry search
    have keyEq : entry.key = other := by
      simpa using List.find?_some (Option.mem_def.mp search)
    simp [keyEq, different]

theorem find?_write (map : PropertyMap) (key other : PropertyKey) (value : Value) :
    (map.write key value).find? other =
      if other = key then
        (map.find? key).map fun (attributes, slot) =>
          (attributes, if slot.kind = .data then .data value else slot)
      else map.find? other := by
  rw [write, find?_change map key other _ (by intro entry; split <;> rfl)]
  split
  · simp only [find?, Option.map_map]
    apply Option.map_congr
    intro entry _
    simp only [Function.comp]
    split <;> simp [*]
  · rfl

theorem find?_replace (map : PropertyMap) (key other : PropertyKey)
    (attributes : Attributes) (slot : Slot) :
    (map.replace key attributes slot).find? other =
      if other = key then (map.find? key).map fun _ => (attributes.stored slot.kind, slot)
      else map.find? other := by
  rw [replace, find?_change map key other]
  · simp [find?, Option.map_map, Function.comp_def]
  · exact fun _ => rfl

theorem find?_add (map : PropertyMap) (key other : PropertyKey)
    (attributes : Attributes) (slot : Slot) :
    (map.add key attributes slot).find? other =
      (map.find? other).or
        (if other = key then some (attributes.stored slot.kind, slot) else none) := by
  simp only [find?, add, List.find?_append]
  cases search : map.entries.find? (·.key = other) with
  | some entry => simp
  | none =>
      by_cases same : other = key
      · simp [same]
      · simp [same, Ne.symm same]

theorem find?_remove (map : PropertyMap) (key other : PropertyKey) :
    (map.remove key).find? other =
      if other = key then none else map.find? other := by
  simp only [find?, remove, List.find?_filter]
  split
  · rename_i same
    subst same
    rw [Option.map_eq_none_iff, List.find?_eq_none]
    intro entry _
    simp
  · rename_i different
    congr 2
    funext entry
    by_cases keyEq : entry.key = other
    · simp [keyEq, different]
    · simp [keyEq]

@[simp] theorem find?_close (map : PropertyMap) (key : PropertyKey) :
    map.close.find? key = map.find? key := rfl

theorem find?_protect (map : PropertyMap) (level : Integrity) (key : PropertyKey) :
    (map.protect level).find? key =
      (map.find? key).map fun (attributes, slot) =>
        (attributes.protect level slot.kind, slot) := by
  simp only [find?, protect]
  rw [find?_map_keeping]
  · simp [Option.map_map, Function.comp_def]
  · exact fun _ => rfl

/-! ### Edits that agree -/

/-- An edit matters only for the entries that have the key. -/
theorem change_congr {map : PropertyMap} {key : PropertyKey} {edit : MapEntry → MapEntry}
    (other : MapEntry → MapEntry)
    (agree : ∀ entry ∈ map.entries, entry.key = key → edit entry = other entry) :
    map.change key edit = map.change key other := by
  simp only [change, mk.injEq, and_true]
  apply List.map_congr_left
  intro entry member
  by_cases sameKey : entry.key = key
  · rw [if_pos sameKey, if_pos sameKey, agree entry member sameKey]
  · rw [if_neg sameKey, if_neg sameKey]

private theorem change_id (map : PropertyMap) (key : PropertyKey) :
    map.change key id = map := by
  simp [change]

theorem change_of_absent {map : PropertyMap} {key : PropertyKey} (absent : key ∉ map.keys)
    (edit : MapEntry → MapEntry) : map.change key edit = map := by
  rw [change_congr id, change_id]
  intro entry member sameKey
  exact absurd (List.mem_map_of_mem member) (sameKey ▸ absent)

theorem remove_of_absent {map : PropertyMap} {key : PropertyKey} (absent : key ∉ map.keys) :
    map.remove key = map := by
  obtain ⟨entries, extensible⟩ := map
  simp only [remove, mk.injEq, and_true]
  rw [List.filter_eq_self]
  intro entry member
  have different : entry.key ≠ key := fun same => absent (same ▸ List.mem_map_of_mem member)
  simpa using different

section Write

variable {map : PropertyMap} (keysNodup : map.keys.Nodup) {key : PropertyKey}

include keysNodup

/-- Without a data property of its key a write changes nothing. -/
theorem write_of_not_hasData (noData : map.hasData key = false) (value : Value) :
    map.write key value = map := by
  rw [write, change_congr id, change_id]
  intro entry member sameKey
  have found := find?_of_mem keysNodup member
  rw [sameKey] at found
  have notData : ¬entry.slot.kind = .data := by
    intro isData
    simp [hasData, found, isData] at noData
  rw [if_neg notData]
  rfl

/-- A write to a data property stores the value, and the attributes stay what they are. -/
theorem write_of_find? {attributes : Attributes} {slot : Slot}
    (found : map.find? key = some (attributes, slot)) (isData : slot.kind = .data)
    (value : Value) :
    (map.write key value = map.change key fun entry => { entry with slot := .data value }) ∧
      map.write key value = map.change key fun entry =>
        { entry with attributes := attributes, slot := .data value } := by
  have only : ∀ entry ∈ map.entries, entry.key = key →
      entry.attributes = attributes ∧ entry.slot.kind = .data := by
    intro entry member sameKey
    have search := find?_of_mem keysNodup member
    rw [sameKey, found] at search
    cases search
    exact ⟨rfl, isData⟩
  constructor
  · apply change_congr
    intro entry member sameKey
    rw [if_pos (only entry member sameKey).2]
  · apply change_congr
    intro entry member sameKey
    rw [if_pos (only entry member sameKey).2, ← (only entry member sameKey).1]

/-- So it replaces the slot. -/
theorem write_eq_replace {attributes : Attributes} {slot : Slot}
    (found : map.find? key = some (attributes, slot)) (isData : slot.kind = .data)
    (value : Value) : map.write key value = map.replace key attributes (.data value) :=
  (write_of_find? keysNodup found isData value).2

end Write

/-! ### Keys and extensibility -/

@[simp] theorem keys_write (map : PropertyMap) (key : PropertyKey) (value : Value) :
    (map.write key value).keys = map.keys := by
  simp only [keys, write, change, List.map_map]
  apply List.map_congr_left
  intro entry _
  simp only [Function.comp]
  split
  · split <;> rfl
  · rfl

@[simp] theorem keys_replace (map : PropertyMap) (key : PropertyKey)
    (attributes : Attributes) (slot : Slot) :
    (map.replace key attributes slot).keys = map.keys := by
  simp only [keys, replace, change, List.map_map]
  apply List.map_congr_left
  intro entry _
  simp only [Function.comp]
  split <;> rfl

@[simp] theorem keys_protect (map : PropertyMap) (level : Integrity) :
    (map.protect level).keys = map.keys := by
  simp [keys, protect, Function.comp_def]

@[simp] theorem keys_add (map : PropertyMap) (key : PropertyKey) (attributes : Attributes)
    (slot : Slot) : (map.add key attributes slot).keys = map.keys ++ [key] := by
  simp [keys, add]

@[simp] theorem keys_remove (map : PropertyMap) (key : PropertyKey) :
    (map.remove key).keys = map.keys.filter (· ≠ key) := by
  simp [keys, remove, List.filter_map, Function.comp_def]

@[simp] theorem keys_close (map : PropertyMap) : map.close.keys = map.keys := rfl

@[simp] theorem extensible_write (map : PropertyMap) (key : PropertyKey) (value : Value) :
    (map.write key value).extensible = map.extensible := rfl

@[simp] theorem extensible_replace (map : PropertyMap) (key : PropertyKey)
    (attributes : Attributes) (slot : Slot) :
    (map.replace key attributes slot).extensible = map.extensible := rfl

@[simp] theorem extensible_add (map : PropertyMap) (key : PropertyKey)
    (attributes : Attributes) (slot : Slot) :
    (map.add key attributes slot).extensible = map.extensible := rfl

@[simp] theorem extensible_remove (map : PropertyMap) (key : PropertyKey) :
    (map.remove key).extensible = map.extensible := rfl

@[simp] theorem extensible_close (map : PropertyMap) : map.close.extensible = false := rfl

@[simp] theorem extensible_protect (map : PropertyMap) (level : Integrity) :
    (map.protect level).extensible = map.extensible := rfl

end PropertyMap

end ObjectModel
