import Mathlib.Data.List.Nodup
import ObjectModel.Dictionary
import ObjectModel.Proofs.Shape.Layout

/-!
Contract: a dictionary is a `PropertyMap`, whatever was added and removed before.

Owns: `Dictionary.WellFormed`, the agreement of entries and order list; the view of a
dictionary; one equation for the view after each operation.

Entries and order list refer to each other. Each entry names the position of its own key,
and each key in the list has an entry that names that position. Holes carry no key, so
they are in nobody's way, and compacting the list cannot be seen in the view.
-/

namespace ObjectModel

namespace Dictionary

/-- Entries and order list agree: every entry names a position of its own key, and a key
in the list is that of the entry that names its position. -/
structure WellFormed (table : Dictionary) : Prop where
  keysNodup : (table.entries.map (·.key)).Nodup
  placed : ∀ entry ∈ table.entries, table.order[entry.position]? = some (some entry.key)
  listed : ∀ position key, table.order[position]? = some (some key) →
    ∃ entry ∈ table.entries, entry.key = key ∧ entry.position = position

/-- The properties of a dictionary in creation order. -/
def view (table : Dictionary) : PropertyMap where
  entries := table.keys.filterMap fun key =>
    (table.get? key).map fun entry => ⟨key, entry.attributes, entry.slot⟩
  extensible := table.extensible

theorem wellFormed_empty : empty.WellFormed where
  keysNodup := List.nodup_nil
  placed := by intro entry member; contradiction
  listed := by intro position key found; simp [empty] at found

/-! ### Entries and keys -/

theorem mem_of_find? {table : Dictionary} {key : PropertyKey} {found : PlacedEntry}
    (search : table.find? key = some found) :
    found ∈ table.entries ∧ found.key = key :=
  ⟨List.mem_of_find?_eq_some search, by simpa using List.find?_some search⟩

theorem get?_eq_none_iff {table : Dictionary} {key : PropertyKey} :
    table.get? key = none ↔ key ∉ table.entries.map (·.key) := by
  simp [get?, find?]

theorem mem_keys_iff_order {table : Dictionary} {key : PropertyKey} :
    key ∈ table.keys ↔ ∃ position : Nat, table.order[position]? = some (some key) := by
  rw [keys, List.mem_filterMap]
  constructor
  · rintro ⟨cell, member, rfl⟩
    obtain ⟨position, inRange, content⟩ := List.getElem_of_mem member
    refine ⟨position, ?_⟩
    rw [← Array.getElem?_toList, List.getElem?_eq_getElem inRange, content]
  · rintro ⟨position, content⟩
    rw [← Array.getElem?_toList] at content
    exact ⟨some key, List.mem_of_getElem? content, rfl⟩

/-- Edits that keep the keys keep what is found, edited. -/
private theorem get?_map_entries (table result : Dictionary) (edit : PlacedEntry → PlacedEntry)
    (keeps : ∀ entry, (edit entry).key = entry.key)
    (entries_eq : result.entries = table.entries.map edit) (key : PropertyKey) :
    result.get? key = (table.find? key).map fun entry => (edit entry).entry := by
  have sameTest : ((fun entry : PlacedEntry => decide (entry.key = key)) ∘ edit) =
      fun entry => decide (entry.key = key) := by
    funext entry
    simp [keeps]
  rw [get?, find?, entries_eq, List.find?_map, Option.map_map, sameTest]
  rfl

namespace WellFormed

variable {table : Dictionary} (wellFormed : table.WellFormed)
include wellFormed

theorem eq_of_key_eq {first second : PlacedEntry} (firstMember : first ∈ table.entries)
    (secondMember : second ∈ table.entries) (sameKey : first.key = second.key) :
    first = second :=
  List.inj_on_of_nodup_map wellFormed.keysNodup firstMember secondMember sameKey

/-- A key stands at one position only. -/
theorem position_unique {key : PropertyKey} {first second : Nat}
    (firstContent : table.order[first]? = some (some key))
    (secondContent : table.order[second]? = some (some key)) : first = second := by
  obtain ⟨left, leftMember, leftKey, leftPosition⟩ :=
    wellFormed.listed first key firstContent
  obtain ⟨right, rightMember, rightKey, rightPosition⟩ :=
    wellFormed.listed second key secondContent
  have same := wellFormed.eq_of_key_eq leftMember rightMember (leftKey.trans rightKey.symm)
  rw [← leftPosition, ← rightPosition, same]

theorem mem_keys_iff {key : PropertyKey} :
    key ∈ table.keys ↔ key ∈ table.entries.map (·.key) := by
  rw [mem_keys_iff_order, List.mem_map]
  constructor
  · rintro ⟨position, content⟩
    obtain ⟨entry, member, keyEq, -⟩ := wellFormed.listed position key content
    exact ⟨entry, member, keyEq⟩
  · rintro ⟨entry, member, rfl⟩
    exact ⟨entry.position, wellFormed.placed entry member⟩

theorem nodup_keys : table.keys.Nodup := by
  rw [keys, List.Nodup, List.pairwise_filterMap, List.pairwise_iff_getElem]
  intro first second firstRange secondRange before key firstContent other secondContent same
  subst same
  have firstListed : table.order[first]? = some (some key) := by
    rw [← Array.getElem?_toList, List.getElem?_eq_getElem firstRange]
    exact congrArg some firstContent
  have secondListed : table.order[second]? = some (some key) := by
    rw [← Array.getElem?_toList, List.getElem?_eq_getElem secondRange]
    exact congrArg some secondContent
  have positions := wellFormed.position_unique firstListed secondListed
  omega

theorem get?_of_mem_keys {key : PropertyKey} (member : key ∈ table.keys) :
    ∃ entry, table.get? key = some entry := by
  apply Option.isSome_iff_exists.mp
  apply Option.isSome_iff_ne_none.mpr
  intro absent
  rw [get?_eq_none_iff] at absent
  exact absent (wellFormed.mem_keys_iff.mp member)

theorem keys_view : table.view.keys = table.keys := by
  have kept : ∀ key ∈ table.keys,
      ((table.get? key).map fun entry : DictionaryEntry =>
        MapEntry.mk key entry.attributes entry.slot).map (·.key) = some key := by
    intro key member
    obtain ⟨entry, found⟩ := wellFormed.get?_of_mem_keys member
    rw [found]
    rfl
  rw [PropertyMap.keys, view, List.map_filterMap]
  calc
    table.keys.filterMap (fun key =>
        ((table.get? key).map fun entry : DictionaryEntry =>
          MapEntry.mk key entry.attributes entry.slot).map (·.key))
      = table.keys.filterMap some := List.filterMap_congr kept
    _ = table.keys := List.filterMap_some

theorem find?_view (key : PropertyKey) :
    table.view.find? key = (table.get? key).map fun entry => (entry.attributes, entry.slot) := by
  cases found : table.get? key with
  | none =>
      rw [get?_eq_none_iff, ← wellFormed.mem_keys_iff, ← wellFormed.keys_view] at found
      exact PropertyMap.find?_eq_none_iff.mpr found
  | some entry =>
      have present : key ∈ table.keys := by
        rw [wellFormed.mem_keys_iff]
        apply Decidable.byContradiction
        intro absent
        rw [get?_eq_none_iff.mpr absent] at found
        contradiction
      have member : MapEntry.mk key entry.attributes entry.slot ∈ table.view.entries :=
        List.mem_filterMap.mpr ⟨key, present, by rw [found]; rfl⟩
      exact PropertyMap.find?_of_mem (by rw [wellFormed.keys_view]; exact wellFormed.nodup_keys)
        member

theorem count_eq_length : table.count = table.keys.length := by
  have sameKeys : table.keys.Perm (table.entries.map (·.key)) :=
    (List.perm_ext_iff_of_nodup wellFormed.nodup_keys wellFormed.keysNodup).mpr
      fun _ => wellFormed.mem_keys_iff
  rw [sameKeys.length_eq, List.length_map, count]

theorem count_view : table.view.count = table.count := by
  rw [wellFormed.count_eq_length, ← wellFormed.keys_view, PropertyMap.keys, List.length_map,
    PropertyMap.count]

end WellFormed

/-! ### Edits in place -/

/-- An edit that keeps keys and positions keeps the agreement of entries and order. -/
private theorem wellFormed_edit {table result : Dictionary} (wellFormed : table.WellFormed)
    (edit : PlacedEntry → PlacedEntry)
    (keeps : ∀ entry, (edit entry).key = entry.key ∧
      (edit entry).position = entry.position)
    (entries_eq : result.entries = table.entries.map edit)
    (order_eq : result.order = table.order) : result.WellFormed := by
  refine ⟨?_, ?_, ?_⟩
  · rw [entries_eq, List.map_map]
    have sameKeys : (fun entry : PlacedEntry => entry.key) ∘ edit = fun entry => entry.key := by
      funext entry
      exact (keeps entry).1
    rw [sameKeys]
    exact wellFormed.keysNodup
  · intro entry member
    rw [entries_eq] at member
    obtain ⟨old, oldMember, rfl⟩ := List.mem_map.mp member
    rw [order_eq, (keeps old).1, (keeps old).2]
    exact wellFormed.placed old oldMember
  · intro position key content
    rw [order_eq] at content
    obtain ⟨entry, member, keyEq, positionEq⟩ := wellFormed.listed position key content
    rw [entries_eq]
    exact ⟨edit entry, List.mem_map_of_mem member, by rw [(keeps entry).1, keyEq],
      by rw [(keeps entry).2, positionEq]⟩

theorem WellFormed.update {table : Dictionary} (wellFormed : table.WellFormed)
    (key : PropertyKey) (entry : DictionaryEntry) : (table.update key entry).WellFormed :=
  wellFormed_edit wellFormed
    (fun placed => if placed.key = key then { placed with entry := entry } else placed)
    (by intro placed; split <;> exact ⟨rfl, rfl⟩) rfl rfl

theorem get?_update (table : Dictionary) (key : PropertyKey) (entry : DictionaryEntry)
    (other : PropertyKey) :
    (table.update key entry).get? other =
      if other = key then (table.get? key).map fun _ => entry else table.get? other := by
  rw [get?_map_entries table (table.update key entry)
    (fun placed => if placed.key = key then { placed with entry := entry } else placed)
    (by intro placed; split <;> rfl) rfl, get?, get?]
  cases search : table.find? other with
  | none =>
      split
      · rename_i same
        rw [← same, search]
        rfl
      · rfl
  | some placed =>
      have keyEq := (mem_of_find? search).2
      simp only [Option.map_some, keyEq]
      split
      · rename_i same
        rw [← same, search]
        rfl
      · rfl

theorem view_update {table : Dictionary} (key : PropertyKey) (entry : DictionaryEntry) :
    (table.update key entry).view =
      table.view.change key fun old =>
        { old with attributes := entry.attributes, slot := entry.slot } := by
  simp only [view, PropertyMap.change, List.map_filterMap, PropertyMap.mk.injEq]
  refine ⟨?_, rfl⟩
  apply List.filterMap_congr
  intro other _
  rw [get?_update]
  split
  · rename_i same
    subst same
    cases table.get? other <;> simp
  · rename_i different
    cases table.get? other <;> simp [different]

theorem WellFormed.protect {table : Dictionary} (wellFormed : table.WellFormed)
    (level : Integrity) : (table.protect level).WellFormed :=
  wellFormed_edit wellFormed
    (fun placed =>
      { placed with
        entry.attributes := placed.entry.attributes.protect level placed.entry.slot.kind })
    (fun _ => ⟨rfl, rfl⟩) rfl rfl

theorem get?_protect (table : Dictionary) (level : Integrity) (key : PropertyKey) :
    (table.protect level).get? key =
      (table.get? key).map fun entry =>
        { entry with attributes := entry.attributes.protect level entry.slot.kind } := by
  rw [get?_map_entries table (table.protect level)
    (fun placed =>
      { placed with
        entry.attributes := placed.entry.attributes.protect level placed.entry.slot.kind })
    (fun _ => rfl) rfl, get?, Option.map_map]
  rfl

theorem view_protect {table : Dictionary} (level : Integrity) :
    (table.protect level).view = table.view.protect level := by
  simp only [view, PropertyMap.protect, List.map_filterMap, PropertyMap.mk.injEq]
  refine ⟨?_, rfl⟩
  apply List.filterMap_congr
  intro key _
  rw [get?_protect]
  cases table.get? key <;> rfl

theorem WellFormed.preventExtensions {table : Dictionary} (wellFormed : table.WellFormed) :
    table.preventExtensions.WellFormed :=
  ⟨wellFormed.keysNodup, wellFormed.placed, wellFormed.listed⟩

/-! ### New keys -/

section Insert

variable {table : Dictionary} (wellFormed : table.WellFormed) {key : PropertyKey}
  (absent : table.get? key = none)

include absent

theorem insert_of_absent (entry : DictionaryEntry) :
    table.insert key entry =
      { table with
        entries := ⟨key, table.order.size, entry⟩ :: table.entries
        order := table.order.push (some key) } := by
  have missing : table.find? key = none := by
    simpa [get?] using absent
  simp [insert, missing]

theorem keys_insert_of_absent (entry : DictionaryEntry) :
    (table.insert key entry).keys = table.keys ++ [key] := by
  rw [insert_of_absent absent]
  simp [keys]

theorem get?_insert_of_absent (entry : DictionaryEntry) (other : PropertyKey) :
    (table.insert key entry).get? other =
      if key = other then some entry else table.get? other := by
  rw [insert_of_absent absent, get?, find?, List.find?_cons]
  by_cases same : key = other
  · simp [same]
  · simp [same, get?, find?]

include wellFormed

theorem wellFormed_insert (entry : DictionaryEntry) :
    (table.insert key entry).WellFormed := by
  rw [insert_of_absent absent]
  have fresh := get?_eq_none_iff.mp absent
  refine ⟨List.nodup_cons.mpr ⟨fresh, wellFormed.keysNodup⟩, ?_, ?_⟩
  · intro placed member
    rcases List.mem_cons.mp member with isNew | isOld
    · subst isNew
      simp
    · have inOrder := wellFormed.placed placed isOld
      have inRange : placed.position < table.order.size :=
        (Array.getElem?_eq_some_iff.mp inOrder).1
      rw [Array.getElem?_push_lt inRange, ← inOrder, Array.getElem?_eq_getElem inRange]
  · intro position other content
    rw [Array.getElem?_push] at content
    split at content
    · rename_i isLast
      cases content
      exact ⟨_, List.mem_cons_self, rfl, isLast.symm⟩
    · obtain ⟨placed, member, keyEq, positionEq⟩ :=
        wellFormed.listed position other content
      exact ⟨placed, List.mem_cons_of_mem _ member, keyEq, positionEq⟩

theorem view_insert (entry : DictionaryEntry) :
    (table.insert key entry).view =
      { table.view with
        entries := table.view.entries ++ [⟨key, entry.attributes, entry.slot⟩] } := by
  have fresh : key ∉ table.keys := by
    rw [wellFormed.mem_keys_iff]
    exact get?_eq_none_iff.mp absent
  have keys_eq := keys_insert_of_absent absent entry
  simp only [view, keys_eq, List.filterMap_append, PropertyMap.mk.injEq]
  refine ⟨?_, by rw [insert_of_absent absent]⟩
  congr 1
  · apply List.filterMap_congr
    intro other member
    have different : key ≠ other := fun same => fresh (same ▸ member)
    rw [get?_insert_of_absent absent, if_neg different]
  · simp [get?_insert_of_absent absent]

end Insert

/-! ### Removal -/

private theorem filterMap_set_none {keys : List (Option PropertyKey)} {position : Nat}
    {key : PropertyKey} (content : keys[position]? = some (some key))
    (unique : ∀ other, keys[other]? = some (some key) → other = position) :
    (keys.set position none).filterMap id = (keys.filterMap id).filter (· ≠ key) := by
  induction keys generalizing position with
  | nil => simp at content
  | cons head rest inductionHypothesis =>
      cases position with
      | zero =>
          simp only [List.getElem?_cons_zero, Option.some.injEq] at content
          subst content
          have nowhere : ∀ other ∈ rest.filterMap id, other ≠ key := by
            intro other member same
            subst same
            rw [List.mem_filterMap] at member
            obtain ⟨cell, cellMember, isKey⟩ := member
            simp only [id] at isKey
            subst isKey
            obtain ⟨index, cellContent⟩ := List.getElem?_of_mem cellMember
            have impossible := unique (index + 1) (by simpa using cellContent)
            omega
          simp only [List.set_cons_zero, List.filterMap_cons, id]
          rw [List.filter_cons_of_neg (by simp), List.filter_eq_self.mpr]
          intro other member
          simpa using nowhere other member
      | succ position =>
          rw [List.set_cons_succ]
          have restContent : rest[position]? = some (some key) := by simpa using content
          have later := inductionHypothesis restContent
            (fun other otherContent => by
              have := unique (other + 1) (by simpa using otherContent)
              omega)
          have headKept : head ≠ some key := by
            intro same
            have := unique 0 (by simp [same])
            omega
          cases head with
          | none => simpa using later
          | some headKey =>
              have different : headKey ≠ key := fun same => headKept (by rw [same])
              have split : ∀ cells : List (Option PropertyKey),
                  (some headKey :: cells).filterMap id = headKey :: cells.filterMap id :=
                fun cells => List.filterMap_cons_some rfl
              rw [split, split, List.filter_cons_of_pos (by simpa using different), later]

/-- After compacting, the order list has the keys and nothing else. -/
private theorem order_compact (table : Dictionary) :
    table.compact.order = (table.keys.map some).toArray := by
  apply Array.toList_inj.mp
  simp only [compact, keys, Array.toList_filter]
  induction table.order.toList with
  | nil => rfl
  | cons head rest inductionHypothesis =>
      cases head <;> simp [inductionHypothesis]

theorem size_order_compact (table : Dictionary) :
    table.compact.order.size = table.keys.length := by
  rw [order_compact, List.size_toArray, List.length_map]

theorem keys_compact (table : Dictionary) : table.compact.keys = table.keys := by
  rw [keys, order_compact, List.filterMap_map]
  exact List.filterMap_some

theorem get?_compact (table : Dictionary) (key : PropertyKey) :
    table.compact.get? key = table.get? key := by
  rw [get?_map_entries table table.compact
    (fun placed =>
      { placed with
        position := (table.compact.order.idxOf? (some placed.key)).getD placed.position })
    (fun _ => rfl) rfl, get?]

/-- The new position of a key is where it stands in the list of keys. -/
private theorem position_compact {table : Dictionary} (wellFormed : table.WellFormed)
    {key : PropertyKey} {position : Nat} (content : table.keys[position]? = some key) :
    table.compact.order.idxOf? (some key) = some position := by
  rw [order_compact, List.idxOf?_toArray, List.idxOf?_eq_some_iff]
  obtain ⟨inRange, isKey⟩ := List.getElem?_eq_some_iff.mp content
  refine ⟨by simpa using inRange, by simpa using isKey, ?_⟩
  intro earlier before same
  have earlierKey : table.keys[earlier] = table.keys[position] := by
    simpa [isKey] using same
  have := (List.getElem_inj wellFormed.nodup_keys).mp earlierKey
  omega

theorem wellFormed_compact {table : Dictionary} (wellFormed : table.WellFormed) :
    table.compact.WellFormed := by
  have entry_eq : ∀ placed ∈ table.entries, ∃ position,
      table.keys[position]? = some placed.key ∧
        (table.compact.order.idxOf? (some placed.key)).getD placed.position = position := by
    intro placed member
    have present : placed.key ∈ table.keys :=
      wellFormed.mem_keys_iff.mpr (List.mem_map_of_mem member)
    obtain ⟨position, content⟩ := List.getElem?_of_mem present
    exact ⟨position, content, by rw [position_compact wellFormed content]; rfl⟩
  refine ⟨?_, ?_, ?_⟩
  · simp only [compact, List.map_map, Function.comp_def]
    exact wellFormed.keysNodup
  · intro placed member
    obtain ⟨old, oldMember, rfl⟩ := List.mem_map.mp member
    obtain ⟨position, content, positionEq⟩ := entry_eq old oldMember
    show table.compact.order[(table.compact.order.idxOf? (some old.key)).getD
      old.position]? = some (some old.key)
    rw [positionEq, order_compact]
    simp [content]
  · intro position key content
    rw [order_compact] at content
    have listed : table.keys[position]? = some key := by simpa using content
    obtain ⟨placed, member, keyEq⟩ := List.mem_map.mp
      (wellFormed.mem_keys_iff.mp (List.mem_of_getElem? listed))
    refine ⟨_, List.mem_map_of_mem member, keyEq, ?_⟩
    show (table.compact.order.idxOf? (some placed.key)).getD placed.position = position
    rw [keyEq, position_compact wellFormed listed]
    rfl

section Erase

variable {table : Dictionary} (wellFormed : table.WellFormed) {key : PropertyKey}
  {placed : PlacedEntry} (search : table.find? key = some placed)

/-- A dictionary without one key, its position left as a hole. -/
private def withHole (table : Dictionary) (key : PropertyKey) (position : Nat) :
    Dictionary :=
  { table with
    entries := table.entries.filter (·.key ≠ key)
    order := table.order.setIfInBounds position none }

private theorem get?_withHole (table : Dictionary) (key : PropertyKey) (position : Nat)
    (other : PropertyKey) :
    (table.withHole key position).get? other =
      if other = key then none else table.get? other := by
  simp only [withHole, get?, find?, List.find?_filter]
  split
  · rename_i same
    subst same
    rw [Option.map_eq_none_iff, List.find?_eq_none]
    intro entry _
    simp
  · rename_i different
    congr 2
    funext entry
    by_cases keyEq : entry.key = other
    · simp [keyEq, different]
    · simp [keyEq]

include search

/-- A removal leaves a hole, and holes that are too many are compacted away. -/
private theorem erase_cases :
    table.erase key = (table.withHole key placed.position).compact ∨
      table.erase key = table.withHole key placed.position ∧
        (table.withHole key placed.position).order.size ≤
          2 * (table.withHole key placed.position).count + toleratedHoles := by
  simp only [erase, search]
  split
  · exact .inl rfl
  · rename_i few
    refine .inr ⟨rfl, ?_⟩
    simp only [Bool.and_eq_true, decide_eq_true_eq, not_and_or, Nat.not_le] at few
    simp only [withHole, toleratedHoles] at few ⊢
    omega

include wellFormed

private theorem wellFormed_withHole :
    (table.withHole key placed.position).WellFormed := by
  obtain ⟨member, keyEq⟩ := mem_of_find? search
  have content := wellFormed.placed placed member
  rw [keyEq] at content
  refine ⟨(List.filter_sublist.map _).nodup wellFormed.keysNodup, ?_, ?_⟩
  · intro other otherMember
    obtain ⟨isOld, otherKey⟩ := List.mem_filter.mp otherMember
    have otherContent := wellFormed.placed other isOld
    have apart : placed.position ≠ other.position := by
      intro same
      rw [← same, content] at otherContent
      simp only [Option.some.injEq] at otherContent
      simp [otherContent] at otherKey
    simp only [withHole, Array.getElem?_setIfInBounds, if_neg apart]
    exact otherContent
  · intro position other otherContent
    simp only [withHole, Array.getElem?_setIfInBounds] at otherContent
    split at otherContent
    · split at otherContent <;> simp at otherContent
    · rename_i elsewhere
      obtain ⟨entry, entryMember, entryKey, entryPosition⟩ :=
        wellFormed.listed position other otherContent
      refine ⟨entry, List.mem_filter.mpr ⟨entryMember, ?_⟩, entryKey, entryPosition⟩
      have different : other ≠ key := by
        intro same
        subst same
        exact elsewhere (wellFormed.position_unique content otherContent)
      simpa [entryKey] using different

private theorem view_withHole :
    (table.withHole key placed.position).view = table.view.remove key := by
  obtain ⟨member, keyEq⟩ := mem_of_find? search
  have content := wellFormed.placed placed member
  rw [keyEq] at content
  have keys_eq : (table.withHole key placed.position).keys =
      table.keys.filter (· ≠ key) := by
    simp only [keys, withHole, Array.toList_setIfInBounds]
    apply filterMap_set_none
    · rw [Array.getElem?_toList]
      exact content
    · intro other otherContent
      rw [Array.getElem?_toList] at otherContent
      exact wellFormed.position_unique otherContent content
  simp only [view, keys_eq, PropertyMap.remove, List.filter_filterMap,
    List.filterMap_filter, PropertyMap.mk.injEq]
  refine ⟨?_, rfl⟩
  apply List.filterMap_congr
  intro other _
  rw [get?_withHole]
  by_cases same : other = key
  · subst same
    cases table.get? other <;> simp [Option.filter]
  · cases table.get? other <;> simp [same, Option.filter]

end Erase

theorem erase_of_absent {table : Dictionary} {key : PropertyKey}
    (absent : table.find? key = none) : table.erase key = table := by
  rw [erase, absent]

theorem erase_spec {table : Dictionary} (wellFormed : table.WellFormed)
    (key : PropertyKey) :
    (table.erase key).WellFormed ∧ (table.erase key).view = table.view.remove key := by
  cases search : table.find? key with
  | none =>
      have absent : table.get? key = none := by rw [get?, search]; rfl
      rw [erase_of_absent search]
      refine ⟨wellFormed, ?_⟩
      have missing : key ∉ table.view.keys := by
        rw [wellFormed.keys_view, wellFormed.mem_keys_iff]
        exact get?_eq_none_iff.mp absent
      have kept : table.view.entries.filter (·.key ≠ key) = table.view.entries := by
        rw [List.filter_eq_self]
        intro entry member
        have different : entry.key ≠ key := fun same =>
          missing (same ▸ List.mem_map_of_mem member)
        simpa using different
      rw [PropertyMap.remove, kept]
  | some placed =>
      have keptWellFormed := wellFormed_withHole wellFormed search
      have keptView := view_withHole wellFormed search
      rcases erase_cases search with compacted | ⟨plain, -⟩
      · rw [compacted]
        refine ⟨wellFormed_compact keptWellFormed, ?_⟩
        rw [← keptView]
        simp only [view, keys_compact, get?_compact]
        rfl
      · rw [plain]
        exact ⟨keptWellFormed, keptView⟩

theorem get?_erase (table : Dictionary) (key other : PropertyKey) :
    (table.erase key).get? other = if other = key then none else table.get? other := by
  cases search : table.find? key with
  | none =>
      rw [erase_of_absent search]
      split
      · rename_i same
        rw [same, get?, search]
        rfl
      · rfl
  | some placed =>
      rcases erase_cases search with compacted | ⟨plain, -⟩
      · rw [compacted, get?_compact, get?_withHole]
      · rw [plain, get?_withHole]

theorem WellFormed.keys_erase {table : Dictionary} (wellFormed : table.WellFormed)
    (key : PropertyKey) : (table.erase key).keys = table.keys.filter (· ≠ key) := by
  obtain ⟨erased, view_eq⟩ := erase_spec wellFormed key
  rw [← erased.keys_view, view_eq, PropertyMap.keys_remove, wellFormed.keys_view]

/-- After a removal the holes are in proportion again, if they were before. -/
theorem WellFormed.size_order_erase {table : Dictionary} (wellFormed : table.WellFormed)
    (key : PropertyKey) (bounded : table.order.size ≤ 2 * table.count + toleratedHoles) :
    (table.erase key).order.size ≤ 2 * (table.erase key).count + toleratedHoles := by
  cases search : table.find? key with
  | none =>
      rw [erase_of_absent search]
      exact bounded
  | some placed =>
      rcases erase_cases search with compacted | ⟨plain, few⟩
      · have erased := (erase_spec wellFormed key).1
        have size_eq : (table.erase key).order.size = (table.erase key).keys.length := by
          rw [compacted, size_order_compact, keys_compact]
        rw [size_eq, erased.count_eq_length]
        omega
      · rw [plain]
        exact few

/-! ### The dictionary of a layout -/

private theorem foldl_insert (properties : List Property) (slots : List Slot)
    {table : Dictionary} (wellFormed : table.WellFormed)
    (keysNodup : (properties.map (·.key)).Nodup)
    (absent : ∀ property ∈ properties, table.get? property.key = none) :
    let filled := properties.foldl (fun dictionary property =>
      dictionary.insert property.key
        ⟨property.attributes, slots.getD property.slot default⟩) table
    filled.WellFormed ∧ filled.view.entries = table.view.entries ++
      properties.map fun property =>
        ⟨property.key, property.attributes, slots.getD property.slot default⟩ := by
  induction properties generalizing table with
  | nil => exact ⟨wellFormed, by simp⟩
  | cons head rest inductionHypothesis =>
      rw [List.map_cons, List.nodup_cons] at keysNodup
      have headAbsent := absent head List.mem_cons_self
      let entry : DictionaryEntry := ⟨head.attributes, slots.getD head.slot default⟩
      have stillAbsent : ∀ property ∈ rest,
          (table.insert head.key entry).get? property.key = none := by
        intro property member
        have different : head.key ≠ property.key := fun same =>
          keysNodup.1 (same ▸ List.mem_map_of_mem member)
        have old := absent property (List.mem_cons_of_mem _ member)
        rw [insert_of_absent headAbsent, get?, find?, List.find?_cons]
        simpa [different, get?, find?] using old
      have filled := inductionHypothesis (wellFormed_insert wellFormed headAbsent entry)
        keysNodup.2 stillAbsent
      refine ⟨filled.1, ?_⟩
      rw [List.foldl_cons]
      refine filled.2.trans ?_
      rw [view_insert wellFormed headAbsent entry]
      simp [entry]

/-- The dictionary that an object leaves its layout for has the same properties. -/
theorem ofLayout_spec {layout : Layout} (wellFormed : layout.WellFormed)
    (slots : List Slot) :
    (ofLayout layout slots).WellFormed ∧ (ofLayout layout slots).view = layout.view slots := by
  have filled := foldl_insert layout.properties slots wellFormed_empty
    wellFormed.keysNodup (by intro property _; rfl)
  refine ⟨⟨filled.1.keysNodup, filled.1.placed, filled.1.listed⟩, ?_⟩
  exact congrArg (fun entries => PropertyMap.mk entries layout.extensible) filled.2

end Dictionary

end ObjectModel
