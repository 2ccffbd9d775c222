import ObjectModel.Shape.Layout

/-!
Contract: a private property table that remembers creation order.

Entries are found by key. The order list has one position for every key, and an
entry knows its position; removing a key leaves a hole, so that no position moves.
When holes outnumber the keys the list is compacted and the positions renumbered.

`keys` is the view of a dictionary: the keys in the order of their latest
creation.
-/

namespace ObjectModel

/-- What a dictionary stores for one key. -/
structure DictionaryEntry where
  attributes : Attributes
  slot : Slot
deriving DecidableEq

/-- An entry with its position in the order list. -/
structure PlacedEntry where
  key : PropertyKey
  position : Nat
  entry : DictionaryEntry
deriving DecidableEq

structure Dictionary where
  entries : List PlacedEntry := []
  order : Array (Option PropertyKey) := #[]
  extensible : Bool := true
deriving DecidableEq, Inhabited

/-- Number of holes that the order list may always have. -/
def toleratedHoles : Nat := 8

namespace Dictionary

def empty : Dictionary := {}

def find? (dictionary : Dictionary) (key : PropertyKey) : Option PlacedEntry :=
  dictionary.entries.find? (·.key = key)

def get? (dictionary : Dictionary) (key : PropertyKey) : Option DictionaryEntry :=
  (dictionary.find? key).map (·.entry)

def count (dictionary : Dictionary) : Nat :=
  dictionary.entries.length

/-- The keys in creation order. -/
def keys (dictionary : Dictionary) : List PropertyKey :=
  dictionary.order.toList.filterMap id

/-- The entry of a present key replaced; an absent key changes nothing. -/
def update (dictionary : Dictionary) (key : PropertyKey) (entry : DictionaryEntry) :
    Dictionary :=
  { dictionary with
    entries := dictionary.entries.map fun placed =>
      if placed.key = key then { placed with entry := entry } else placed }

/-- The entry stored under a key. A new key goes last. -/
def insert (dictionary : Dictionary) (key : PropertyKey) (entry : DictionaryEntry) :
    Dictionary :=
  if (dictionary.find? key).isSome then dictionary.update key entry
  else
    { dictionary with
      entries := ⟨key, dictionary.order.size, entry⟩ :: dictionary.entries
      order := dictionary.order.push (some key) }

/-- The order list without holes, and every entry at its new position. -/
def compact (dictionary : Dictionary) : Dictionary :=
  let order := dictionary.order.filter Option.isSome
  { dictionary with
    entries := dictionary.entries.map fun placed =>
      { placed with position := (order.idxOf? (some placed.key)).getD placed.position }
    order := order }

/-- The key removed; the others keep their order. -/
def erase (dictionary : Dictionary) (key : PropertyKey) : Dictionary :=
  match dictionary.find? key with
  | none => dictionary
  | some placed =>
      let remaining : Dictionary :=
        { dictionary with
          entries := dictionary.entries.filter (·.key ≠ key)
          order := dictionary.order.setIfInBounds placed.position none }
      let holes := remaining.order.size - remaining.count
      if toleratedHoles ≤ holes && remaining.count < holes then remaining.compact
      else remaining

def preventExtensions (dictionary : Dictionary) : Dictionary :=
  { dictionary with extensible := false }

/-- Every property protected to a level. -/
def protect (dictionary : Dictionary) (level : Integrity) : Dictionary :=
  { dictionary with
    entries := dictionary.entries.map fun placed =>
      { placed with
        entry.attributes := placed.entry.attributes.protect level placed.entry.slot.kind } }

/-- The dictionary of an object with this layout and these slots. -/
def ofLayout (layout : Layout) (slots : List Slot) : Dictionary :=
  let filled := layout.properties.foldl (fun dictionary property =>
    dictionary.insert property.key
      ⟨property.attributes, slots.getD property.slot default⟩) empty
  { filled with extensible := layout.extensible }

end Dictionary

end ObjectModel
