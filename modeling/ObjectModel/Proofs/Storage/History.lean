import Mathlib.Data.List.Induction
import ObjectModel.Proofs.Storage.Dictionary

/-!
Contract: a dictionary is what its history says.

A history lists what was done to a dictionary that was empty at first; filling one from a
layout is such a history (`Dictionary.ofLayout_eq_runAll`). `Dictionary.Records` says what can be
read off a history: the entry of a key is the one last written unless the key was removed
since, and the keys stand in the order of the insertions that last made them present.

Three facts carry it. The entry of a key depends on that of no other (`get?_run`), a key goes
last when it is made present and does not move again (`keys_run`), and both stay as they are
when the order list is compacted (`compact_seenAs`).

Does not own: that nothing is added to a dictionary that is not extensible. Whoever adds asks
first.
-/

namespace ObjectModel

/-- The entry protected to a level. -/
def DictionaryEntry.protect (entry : DictionaryEntry) (level : Integrity) : DictionaryEntry :=
  { entry with attributes := entry.attributes.protect level entry.slot.kind }

namespace Dictionary

/-- One thing that is done to a dictionary. -/
inductive Operation where
  | insert (key : PropertyKey) (entry : DictionaryEntry)
  | remove (key : PropertyKey)
  /-- The entry of a key edited where it is stored. An absent key has none. -/
  | write (key : PropertyKey) (edit : DictionaryEntry → DictionaryEntry)
  | protect (level : Integrity)
  | preventExtensions

namespace Operation

/-- The dictionary afterwards, and the entry given back, which only a removal does. -/
def run (table : Dictionary) : Operation → Dictionary × Option DictionaryEntry
  | insert key entry => (table.insert key entry, none)
  | remove key => (table.erase key, table.get? key)
  | write key edit =>
      match table.get? key with
      | some entry => (table.update key (edit entry), none)
      | none => (table, none)
  | protect level => (table.protect level, none)
  | preventExtensions => (table.preventExtensions, none)

/-- The one key that an operation is about. -/
def key? : Operation → Option PropertyKey
  | insert key _ | remove key | write key _ => some key
  | protect _ | preventExtensions => none

/-- What becomes of the entry of a key. -/
def entryAfter (key : PropertyKey) (entry : Option DictionaryEntry) :
    Operation → Option DictionaryEntry
  | insert other new => if key = other then some new else entry
  | remove other => if key = other then none else entry
  | write other edit => if key = other then entry.map edit else entry
  | protect level => entry.map (·.protect level)
  | preventExtensions => entry

/-- What becomes of the list of keys. -/
def keysAfter (keys : List PropertyKey) : Operation → List PropertyKey
  | insert key _ => if key ∈ keys then keys else keys ++ [key]
  | remove key => keys.filter (· ≠ key)
  | write _ _ | protect _ | preventExtensions => keys

/-- Keys are only added at the end. -/
theorem keysAfter_cases (keys : List PropertyKey) (operation : Operation) :
    (∃ key entry, operation = .insert key entry ∧ key ∉ keys ∧
      operation.keysAfter keys = keys ++ [key]) ∨
    (operation.keysAfter keys).Sublist keys := by
  cases operation with
  | insert key entry =>
      by_cases present : key ∈ keys
      · refine .inr ?_
        rw [keysAfter, if_pos present]
      · exact .inl ⟨key, entry, rfl, present, if_neg present⟩
  | remove key => exact .inr List.filter_sublist
  | write | protect | preventExtensions => exact .inr (.refl keys)

end Operation

/-! ### One operation -/

theorem WellFormed.isSome_get?_iff {table : Dictionary} (wellFormed : table.WellFormed)
    (key : PropertyKey) : (table.get? key).isSome = true ↔ key ∈ table.keys := by
  rw [Option.isSome_iff_ne_none, Ne, get?_eq_none_iff, wellFormed.mem_keys_iff, not_not]

theorem insert_of_present {table : Dictionary} {key : PropertyKey} {old : DictionaryEntry}
    (present : table.get? key = some old) (entry : DictionaryEntry) :
    table.insert key entry = table.update key entry := by
  obtain ⟨placed, search, -⟩ := Option.map_eq_some_iff.mp present
  rw [insert, search, Option.isSome_some, if_pos rfl]

/-- An operation on one key does not touch the entry of another. -/
theorem get?_run (table : Dictionary) (operation : Operation) (key : PropertyKey) :
    (operation.run table).1.get? key = operation.entryAfter key (table.get? key) := by
  cases operation with
  | insert other entry =>
      simp only [Operation.run, Operation.entryAfter]
      cases found : table.get? other with
      | some old =>
          rw [insert_of_present found, get?_update, found]
          rfl
      | none => simp only [get?_insert_of_absent found, eq_comm]
  | remove other => exact get?_erase table other key
  | write other edit =>
      simp only [Operation.run, Operation.entryAfter]
      cases found : table.get? other with
      | some old =>
          rw [get?_update, found]
          split
          · rename_i same
            rw [same, found]
            rfl
          · rfl
      | none =>
          show table.get? key = _
          split
          · rename_i same
            rw [same, found]
            rfl
          · rfl
  | protect level => exact get?_protect table level key
  | preventExtensions => rfl

theorem keys_run {table : Dictionary} (wellFormed : table.WellFormed)
    (operation : Operation) :
    (operation.run table).1.keys = operation.keysAfter table.keys := by
  cases operation with
  | insert key entry =>
      simp only [Operation.run, Operation.keysAfter, ← wellFormed.isSome_get?_iff]
      cases found : table.get? key with
      | some old =>
          rw [insert_of_present found]
          rfl
      | none => exact keys_insert_of_absent found entry
  | remove key => exact wellFormed.keys_erase key
  | write key edit =>
      simp only [Operation.run]
      split <;> rfl
  | protect | preventExtensions => rfl

theorem extensible_run (table : Dictionary) (operation : Operation) :
    (operation.run table).1.extensible =
      match operation with
      | .preventExtensions => false
      | _ => table.extensible := by
  cases operation with
  | insert key entry =>
      simp only [Operation.run, insert]
      split <;> rfl
  | remove key =>
      simp only [Operation.run, erase]
      split
      · rfl
      · split <;> rfl
  | write key edit =>
      simp only [Operation.run]
      split <;> rfl
  | protect | preventExtensions => rfl

/-- What every operation keeps: entries and order list agree, and the holes are in
proportion. -/
structure Sound (table : Dictionary) : Prop extends table.WellFormed where
  bounded : table.order.size ≤ 2 * table.count + toleratedHoles

theorem sound_empty : empty.Sound where
  toWellFormed := wellFormed_empty
  bounded := Nat.zero_le _

private theorem Sound.update {table : Dictionary} (sound : table.Sound) (key : PropertyKey)
    (entry : DictionaryEntry) : (table.update key entry).Sound where
  toWellFormed := sound.toWellFormed.update key entry
  bounded := by simpa [Dictionary.update, count] using sound.bounded

theorem Sound.run {table : Dictionary} (sound : table.Sound) (operation : Operation) :
    (operation.run table).1.Sound := by
  cases operation with
  | insert key entry =>
      simp only [Operation.run]
      cases found : table.get? key with
      | some old =>
          rw [insert_of_present found]
          exact sound.update key entry
      | none =>
          refine ⟨wellFormed_insert sound.toWellFormed found entry, ?_⟩
          have bounded := sound.bounded
          rw [insert_of_absent found]
          simp only [count, Array.size_push, List.length_cons] at bounded ⊢
          omega
  | remove key =>
      exact ⟨(erase_spec sound.toWellFormed key).1,
        sound.toWellFormed.size_order_erase key sound.bounded⟩
  | write key edit =>
      simp only [Operation.run]
      split
      · exact sound.update key _
      · exact sound
  | protect level =>
      refine ⟨sound.toWellFormed.protect level, ?_⟩
      simpa [Operation.run, Dictionary.protect, count] using sound.bounded
  | preventExtensions => exact ⟨sound.toWellFormed.preventExtensions, sound.bounded⟩

/-! ### Histories -/

/-- The dictionary after some operations, one behind the other. -/
def runAll (table : Dictionary) (operations : List Operation) : Dictionary :=
  operations.foldl (fun table operation => (operation.run table).1) table

theorem runAll_append (table : Dictionary) (before behind : List Operation) :
    table.runAll (before ++ behind) = (table.runAll before).runAll behind :=
  List.foldl_append

theorem runAll_concat (table : Dictionary) (operations : List Operation)
    (operation : Operation) :
    table.runAll (operations ++ [operation]) = (operation.run (table.runAll operations)).1 :=
  runAll_append table operations [operation]

theorem Sound.runAll {table : Dictionary} (sound : table.Sound)
    (operations : List Operation) : (table.runAll operations).Sound := by
  induction operations generalizing table with
  | nil => exact sound
  | cons operation rest inductionHypothesis => exact inductionHypothesis (sound.run operation)

/-- What an entry becomes by operations of which none is about its key. -/
def protectedBy (entry : DictionaryEntry) (operations : List Operation) : DictionaryEntry :=
  operations.foldl (fun entry operation =>
    match operation with
    | .protect level => entry.protect level
    | _ => entry) entry

theorem Operation.entryAfter_of_apart {key : PropertyKey} {operation : Operation}
    (apart : operation.key? ≠ some key) (entry : Option DictionaryEntry) :
    operation.entryAfter key entry = entry.map fun old => protectedBy old [operation] := by
  cases operation with
  | insert other | remove other | write other =>
      have different : key ≠ other := fun same => apart (congrArg some same.symm)
      cases entry <;> exact if_neg different
  | protect | preventExtensions => cases entry <;> rfl

theorem get?_runAll_of_apart (table : Dictionary) {key : PropertyKey}
    {operations : List Operation} (apart : ∀ operation ∈ operations, operation.key? ≠ some key) :
    (table.runAll operations).get? key =
      (table.get? key).map fun entry => protectedBy entry operations := by
  induction operations generalizing table with
  | nil => exact Option.map_id'.symm
  | cons operation rest inductionHypothesis =>
      have restApart := inductionHypothesis (operation.run table).1 fun other member =>
        apart other (List.mem_cons_of_mem _ member)
      rw [get?_run, Operation.entryAfter_of_apart (apart operation List.mem_cons_self),
        Option.map_map] at restApart
      exact restApart

/-- The entry of a key is that after the last operation about it, and what was protected
since. -/
theorem get?_runAll_split (table : Dictionary) {key : PropertyKey} (before : List Operation)
    (operation : Operation) {behind : List Operation}
    (apart : ∀ other ∈ behind, other.key? ≠ some key) :
    (table.runAll (before ++ operation :: behind)).get? key =
      (operation.entryAfter key ((table.runAll before).get? key)).map
        fun entry => protectedBy entry behind := by
  have split : table.runAll (before ++ operation :: behind) =
      (operation.run (table.runAll before)).1.runAll behind := runAll_append table before _
  rw [split, get?_runAll_of_apart _ apart, get?_run]

/-! ### The order of the keys -/

/-- The dictionary after the first operations of a history. -/
def atMoment (history : List Operation) (moment : Nat) : Dictionary :=
  empty.runAll (history.take moment)

/-- The insertion at this moment made the key present, and it has been present since. -/
structure MadePresent (history : List Operation) (key : PropertyKey) (moment : Nat) : Prop where
  inserted : ∃ entry, history[moment]? = some (.insert key entry)
  absent : (atMoment history moment).get? key = none
  stays : ∀ later, moment < later → later ≤ history.length →
    ((atMoment history later).get? key).isSome = true

/-- The first key was made present before the second. -/
def InOrder (history : List Operation) (first second : PropertyKey) : Prop :=
  ∃ earlier later, earlier < later ∧ MadePresent history first earlier ∧
    MadePresent history second later

section Concat

variable {history : List Operation} {operation : Operation}

theorem atMoment_concat {moment : Nat} (early : moment ≤ history.length) :
    atMoment (history ++ [operation]) moment = atMoment history moment := by
  rw [atMoment, List.take_append_of_le_length early, atMoment]

theorem atMoment_concat_end :
    atMoment (history ++ [operation]) (history.length + 1) =
      empty.runAll (history ++ [operation]) := by
  rw [atMoment, List.take_of_length_le (by simp)]

theorem MadePresent.lt_length {key : PropertyKey} {moment : Nat}
    (made : MadePresent history key moment) : moment < history.length := by
  obtain ⟨entry, found⟩ := made.inserted
  exact (List.getElem?_eq_some_iff.mp found).1

/-- A key that is there still was made present when it was. -/
theorem MadePresent.concat {key : PropertyKey} {moment : Nat}
    (made : MadePresent history key moment)
    (present : ((empty.runAll (history ++ [operation])).get? key).isSome = true) :
    MadePresent (history ++ [operation]) key moment := by
  refine ⟨?_, ?_, ?_⟩
  · rw [List.getElem?_append_left made.lt_length]
    exact made.inserted
  · rw [atMoment_concat (Nat.le_of_lt made.lt_length)]
    exact made.absent
  · intro later behind until'
    rw [List.length_append, List.length_singleton] at until'
    rcases Nat.le_or_eq_of_le_succ until' with early | rfl
    · rw [atMoment_concat early]
      exact made.stays later behind early
    · exact atMoment_concat_end ▸ present

/-- An insertion under an absent key makes it present. -/
theorem madePresent_insert {key : PropertyKey}
    (absent : (empty.runAll history).get? key = none) (entry : DictionaryEntry) :
    MadePresent (history ++ [.insert key entry]) key history.length := by
  refine ⟨⟨entry, List.getElem?_concat_length⟩, ?_, ?_⟩
  · rw [atMoment_concat (Nat.le_refl _), atMoment, List.take_length]
    exact absent
  · intro later behind until'
    rw [List.length_append, List.length_singleton] at until'
    obtain rfl := Nat.le_antisymm until' behind
    rw [atMoment_concat_end, runAll_concat, get?_run, Operation.entryAfter,
      if_pos rfl]
    rfl

/-- Keys in the order in which they were made present. -/
structure Chronological (history : List Operation) (keys : List PropertyKey) : Prop where
  made : ∀ key ∈ keys, ∃ moment, MadePresent history key moment
  inOrder : keys.Pairwise (InOrder history)

namespace Chronological

variable {keys : List PropertyKey} (chronological : Chronological history keys)

include chronological

theorem sublist {kept : List PropertyKey} (within : kept.Sublist keys) :
    Chronological history kept where
  made := fun key member => chronological.made key (within.subset member)
  inOrder := chronological.inOrder.sublist within

/-- Keys that are there still stay in their order. -/
theorem concat (present : ∀ key ∈ keys,
      ((empty.runAll (history ++ [operation])).get? key).isSome = true) :
    Chronological (history ++ [operation]) keys where
  made := by
    intro key member
    obtain ⟨moment, wasMade⟩ := chronological.made key member
    exact ⟨moment, wasMade.concat (present key member)⟩
  inOrder := by
    apply chronological.inOrder.imp_of_mem
    rintro first second firstMember secondMember ⟨earlier, later, order, left, right⟩
    exact ⟨earlier, later, order, left.concat (present first firstMember),
      right.concat (present second secondMember)⟩

/-- A key that is made present goes last. -/
theorem insert {key : PropertyKey} {entry : DictionaryEntry}
    (absent : (empty.runAll history).get? key = none)
    (present : ∀ other ∈ keys,
      ((empty.runAll (history ++ [.insert key entry])).get? other).isSome = true) :
    Chronological (history ++ [.insert key entry]) (keys ++ [key]) := by
  have old := chronological.concat present
  have new := madePresent_insert absent entry
  refine ⟨?_, ?_⟩
  · intro other member
    rw [List.mem_append, List.mem_singleton] at member
    rcases member with isOld | rfl
    · exact old.made other isOld
    · exact ⟨history.length, new⟩
  · refine List.pairwise_append.mpr ⟨old.inOrder, List.pairwise_singleton _ _, ?_⟩
    intro first firstMember second secondMember
    obtain rfl := List.mem_singleton.mp secondMember
    obtain ⟨moment, wasMade⟩ := chronological.made first firstMember
    exact ⟨moment, history.length, wasMade.lt_length, wasMade.concat (present first firstMember),
      new⟩

end Chronological

end Concat

/-- The keys of a dictionary are in the order in which they were made present. -/
theorem keys_chronological (history : List Operation) :
    Chronological history (empty.runAll history).keys := by
  induction history using List.reverseRecOn with
  | nil => exact ⟨fun _ member => absurd member List.not_mem_nil, .nil⟩
  | append_singleton history operation inductionHypothesis =>
      have before := (sound_empty.runAll history).toWellFormed
      have after := (sound_empty.runAll (history ++ [operation])).toWellFormed
      have keys_eq := keys_run before operation
      rw [← runAll_concat] at keys_eq
      rcases operation.keysAfter_cases (empty.runAll history).keys with
        ⟨key, entry, rfl, isNew, added⟩ | kept
      · rw [added] at keys_eq
        rw [keys_eq]
        apply inductionHypothesis.insert
        · rwa [get?_eq_none_iff, ← before.mem_keys_iff]
        · intro other member
          rw [after.isSome_get?_iff, keys_eq]
          exact List.mem_append_left _ member
      · rw [keys_eq]
        apply (inductionHypothesis.sublist kept).concat
        intro key member
        rwa [after.isSome_get?_iff, keys_eq]

/-! ### What cannot be seen -/

/-- What the operations give back. -/
def answers (table : Dictionary) : List Operation → List (Option DictionaryEntry)
  | [] => []
  | operation :: rest => (operation.run table).2 :: (operation.run table).1.answers rest

/-- Two dictionaries that no lookup tells apart. -/
structure SeenAs (left right : Dictionary) : Prop where
  get?_eq : ∀ key, left.get? key = right.get? key
  keys_eq : left.keys = right.keys
  count_eq : left.count = right.count
  extensible_eq : left.extensible = right.extensible

namespace SeenAs

variable {left right : Dictionary} (seen : left.SeenAs right) (leftFormed : left.Sound)
  (rightFormed : right.Sound)

include seen leftFormed rightFormed

theorem run (operation : Operation) :
    (operation.run left).1.SeenAs (operation.run right).1 where
  get?_eq := by
    intro key
    rw [get?_run, get?_run, seen.get?_eq]
  keys_eq := by
    rw [keys_run leftFormed.toWellFormed, keys_run rightFormed.toWellFormed, seen.keys_eq]
  count_eq := by
    rw [(leftFormed.run operation).count_eq_length, (rightFormed.run operation).count_eq_length,
      keys_run leftFormed.toWellFormed, keys_run rightFormed.toWellFormed, seen.keys_eq]
  extensible_eq := by
    rw [extensible_run, extensible_run, seen.extensible_eq]

/-- Nor does anything that is done to them later. -/
theorem runAll (operations : List Operation) :
    (left.runAll operations).SeenAs (right.runAll operations) ∧
      left.answers operations = right.answers operations := by
  induction operations generalizing left right with
  | nil => exact ⟨seen, rfl⟩
  | cons operation rest inductionHypothesis =>
      have later := inductionHypothesis (seen.run leftFormed rightFormed operation)
        (leftFormed.run operation) (rightFormed.run operation)
      have sameAnswer : (operation.run left).2 = (operation.run right).2 := by
        cases operation with
        | remove key => exact seen.get?_eq key
        | write key edit =>
            simp only [Operation.run]
            split <;> split <;> rfl
        | insert | protect | preventExtensions => rfl
      refine ⟨later.1, ?_⟩
      rw [answers, answers, sameAnswer, later.2]

end SeenAs

theorem Sound.compact {table : Dictionary} (sound : table.Sound) : table.compact.Sound where
  toWellFormed := wellFormed_compact sound.toWellFormed
  bounded := by
    have formed := wellFormed_compact sound.toWellFormed
    rw [formed.count_eq_length, keys_compact, size_order_compact]
    omega

theorem compact_seenAs (table : Dictionary) : table.compact.SeenAs table where
  get?_eq := get?_compact table
  keys_eq := keys_compact table
  count_eq := by simp [count, Dictionary.compact]
  extensible_eq := rfl

/-! ### From a layout -/

/-- How a dictionary is filled from a layout. -/
def fillings (layout : Layout) (slots : List Slot) : List Operation :=
  (layout.properties.map fun property =>
    .insert property.key ⟨property.attributes, slots.getD property.slot default⟩) ++
    if layout.extensible then [] else [.preventExtensions]

theorem ofLayout_eq_runAll (layout : Layout) (slots : List Slot) :
    ofLayout layout slots = empty.runAll (fillings layout slots) := by
  let put : Property → Operation := fun property =>
    .insert property.key ⟨property.attributes, slots.getD property.slot default⟩
  have isOpen : (empty.runAll (layout.properties.map put)).extensible = true := by
    induction layout.properties using List.reverseRecOn with
    | nil => rfl
    | append_singleton properties property inductionHypothesis =>
        rw [List.map_append, List.map_singleton, runAll_concat, extensible_run]
        exact inductionHypothesis
  have filled : ofLayout layout slots =
      { empty.runAll (layout.properties.map put) with extensible := layout.extensible } := by
    rw [runAll, List.foldl_map]
    rfl
  rw [filled, fillings, runAll_append]
  split
  · rename_i staysOpen
    rw [staysOpen, ← isOpen]
    rfl
  · rename_i isClosed
    rw [Bool.not_eq_true] at isClosed
    rw [isClosed]
    rfl

/-! ### What a history says -/

/-- A dictionary is what its history says. A key that no operation is about is absent. Else
its entry is that of the last operation about it: the one inserted, or written to where the key
was present, with what was protected since; and none after a removal. A removal gives back the
entry of its key, and takes nothing else away. Each key that is present is listed once, in the
order of the insertions that last made them present. Every entry names the position of its own
key in the order list, which is at most eight cells longer than twice the list of keys; and if
it is compacted at any time, nobody can tell. -/
structure Records (table : Dictionary) (history : List Operation) : Prop where
  unmentioned : ∀ key, (∀ operation ∈ history, operation.key? ≠ some key) →
    table.get? key = none
  inserted : ∀ before key entry behind, history = before ++ .insert key entry :: behind →
    (∀ operation ∈ behind, operation.key? ≠ some key) →
      table.get? key = some (protectedBy entry behind)
  written : ∀ before key edit behind, history = before ++ .write key edit :: behind →
    (∀ operation ∈ behind, operation.key? ≠ some key) →
      table.get? key =
        ((empty.runAll before).get? key).map fun entry => protectedBy (edit entry) behind
  removed : ∀ before key behind, history = before ++ .remove key :: behind →
    (∀ operation ∈ behind, operation.key? ≠ some key) → table.get? key = none
  givenBack : ∀ key, ((Operation.remove key).run table).2 = table.get? key ∧
    ∀ other, ((Operation.remove key).run table).1.get? other =
      if other = key then none else table.get? other
  listed : ∀ key, key ∈ table.keys ↔ (table.get? key).isSome = true
  listedOnce : table.keys.Nodup
  chronological : Chronological history table.keys
  count_eq : table.count = table.keys.length
  placed : table.WellFormed
  bounded : table.order.size ≤ 2 * table.count + 8
  compacted : ∀ later : List Operation,
    (table.compact.runAll later).SeenAs (table.runAll later) ∧
      table.compact.answers later = table.answers later

/-- Every history of a dictionary that was empty is recorded. -/
private theorem records_runAll (history : List Operation) :
    (empty.runAll history).Records history := by
  have sound := sound_empty.runAll history
  have wellFormed := sound.toWellFormed
  refine ⟨?_, ?_, ?_, ?_, ?_, ?_, wellFormed.nodup_keys, keys_chronological history,
    wellFormed.count_eq_length, wellFormed, sound.bounded, ?_⟩
  · intro key apart
    exact get?_runAll_of_apart empty apart
  · intro before key entry behind split apart
    rw [split, get?_runAll_split empty before _ apart, Operation.entryAfter, if_pos rfl,
      Option.map_some]
  · intro before key edit behind split apart
    rw [split, get?_runAll_split empty before _ apart, Operation.entryAfter, if_pos rfl,
      Option.map_map]
    rfl
  · intro before key behind split apart
    rw [split, get?_runAll_split empty before _ apart, Operation.entryAfter, if_pos rfl,
      Option.map_none]
  · exact fun key => ⟨rfl, get?_erase _ key⟩
  · exact fun key => (wellFormed.isSome_get?_iff key).symm
  · exact (compact_seenAs _).runAll sound.compact sound

/-- A dictionary is what its history says, whether it was empty at first or was filled from a
layout. -/
theorem runAll_records (operations : List Operation) :
    (empty.runAll operations).Records operations ∧
      ∀ layout slots, ((ofLayout layout slots).runAll operations).Records
        (fillings layout slots ++ operations) := by
  refine ⟨records_runAll operations, ?_⟩
  intro layout slots
  have whole := records_runAll (fillings layout slots ++ operations)
  rwa [runAll_append, ← ofLayout_eq_runAll] at whole

/-- A key that is removed and inserted again goes last. -/
example :
    let insert := fun index => Operation.insert (.ofNat index) ⟨.assigned, .data .undefined⟩
    (empty.runAll [insert 0, insert 1, insert 2, .remove (.ofNat 0), insert 0]).keys =
      [.ofNat 1, .ofNat 2, .ofNat 0] := by
  decide

end Dictionary

end ObjectModel
