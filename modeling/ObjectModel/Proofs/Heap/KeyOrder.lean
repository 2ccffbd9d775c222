import ObjectModel.Proofs.Heap.Twin

/-!
Contract: the order in which the keys of an object are listed.

Sorting is stable, and the list that is sorted has the keys in the order in which they were
last created: a key that is added goes last, and nothing else moves a key. Both are put
together in `Heap.ownKeys_precedes`.

Owns: which of two keys was created first (`Heap.CreatedBefore`).
-/

namespace ObjectModel

/-! ### Sorting -/

namespace PropertyKey

/-- The order in which keys are listed: array indices by number, then strings, then symbols,
and two strings or two symbols as `older` says. -/
inductive Precedes (older : PropertyKey → PropertyKey → Prop) (first second : PropertyKey) : Prop
  | index {left right : Nat} {inRange : left < indexLimit} {inRange' : right < indexLimit}
      (isLeft : first = .index left inRange) (isRight : second = .index right inRange')
      (ascending : left < right)
  | kind (ascending : first.orderClass < second.orderClass)
  | age (sameKind : first.orderClass = second.orderClass) (notIndex : first.isIndex = false)
      (created : older first second)

theorem mayPrecede_total (first second : PropertyKey) :
    (first.mayPrecede second || second.mayPrecede first) = true := by
  cases first <;> cases second <;>
    simp [mayPrecede, order, orderClass, Nat.compare_eq_gt]
  omega

theorem isIndex_eq (key : PropertyKey) : key.isIndex = decide (key.orderClass = 0) := by
  cases key <;> rfl

theorem orderClass_le {first second : PropertyKey} (ordered : first.mayPrecede second = true) :
    first.orderClass ≤ second.orderClass := by
  cases first <;> cases second <;>
    simp_all [mayPrecede, order, orderClass, Nat.compare_eq_gt]

/-- Two keys of a kind that is not sorted by number may stand in either order. -/
theorem mayPrecede_of_sameKind {first second : PropertyKey}
    (sameKind : first.orderClass = second.orderClass) (notIndex : first.isIndex = false) :
    first.mayPrecede second = true := by
  cases first <;> cases second <;> simp_all [mayPrecede, order, orderClass, isIndex]

theorem pairwise_sorted (keys : List PropertyKey) :
    (sorted keys).Pairwise fun first second => first.mayPrecede second = true := by
  apply List.pairwise_mergeSort
  · exact fun _ _ _ => mayPrecede_trans
  · exact mayPrecede_total

/-- Strings keep their order, and so do symbols. -/
theorem filter_sorted (keys : List PropertyKey) {key : PropertyKey}
    (notIndex : key.isIndex = false) :
    (sorted keys).filter (·.orderClass = key.orderClass) =
      keys.filter (·.orderClass = key.orderClass) := by
  have tied : (keys.filter (·.orderClass = key.orderClass)).Pairwise
      fun first second => first.mayPrecede second = true := by
    apply List.pairwise_of_forall_sublist
    intro first second listed
    have sameKind : ∀ other ∈ [first, second], other.orderClass = key.orderClass := by
      intro other member
      simpa using (List.mem_filter.mp (listed.subset member)).2
    have firstKind := sameKind first List.mem_cons_self
    have secondKind := sameKind second (List.mem_cons_of_mem _ List.mem_cons_self)
    apply mayPrecede_of_sameKind (firstKind.trans secondKind.symm)
    rw [isIndex_eq, firstKind, ← isIndex_eq, notIndex]
  have kept : (keys.filter (·.orderClass = key.orderClass)).Sublist (sorted keys) := by
    apply List.sublist_mergeSort
    · exact fun _ _ _ => mayPrecede_trans
    · exact mayPrecede_total
    · exact tied
    · exact List.filter_sublist
  have within := kept.filter (·.orderClass = key.orderClass)
  rw [List.filter_filter] at within
  simp only [Bool.and_self] at within
  have sameLength := ((List.mergeSort_perm keys mayPrecede).filter
    (·.orderClass = key.orderClass)).length_eq
  exact (within.eq_of_length sameLength.symm).symm

/-- Distinct keys that are in the order of their age are listed in order. -/
theorem sorted_precedes {keys : List PropertyKey} {older : PropertyKey → PropertyKey → Prop}
    (distinct : keys.Nodup) (pairwise : keys.Pairwise older) :
    (sorted keys).Pairwise (Precedes older) := by
  apply List.pairwise_of_forall_sublist
  intro first second listed
  have ordered := List.pairwise_iff_forall_sublist.mp (pairwise_sorted keys) listed
  have different : first ≠ second := by
    have nodup := (List.mergeSort_perm keys mayPrecede).nodup_iff.mpr distinct
    exact List.pairwise_iff_forall_sublist.mp nodup listed
  rcases Nat.lt_or_eq_of_le (orderClass_le ordered) with ascending | sameKind
  · exact .kind ascending
  · cases isIndex : first.isIndex with
    | false =>
        refine .age sameKind isIndex ?_
        -- the sort does not compare the two, so they stand as they stood
        have within := listed.filter (·.orderClass = first.orderClass)
        rw [filter_sorted keys isIndex] at within
        simp only [sameKind, decide_true, List.filter_cons_of_pos, List.filter_nil] at within
        exact List.pairwise_iff_forall_sublist.mp pairwise (within.trans List.filter_sublist)
    | true =>
        cases first <;> cases second <;> try contradiction
        rename_i left inRange right inRange'
        have le : left ≤ right := by
          simpa [mayPrecede, order, Nat.compare_eq_gt] using ordered
        have ne : left ≠ right := by
          rintro rfl
          exact different rfl
        exact .index rfl rfl (Nat.lt_of_le_of_ne le ne)

end PropertyKey

namespace Heap

/-! ### One command -/

/-- What a command makes of the keys of an object: a key that is added goes last, and the
fields of a description become the keys of a new object in their order. -/
inductive KeyStep (heap : Heap) (id : ObjectId) (keys : List PropertyKey) :
    Command → List PropertyKey → Prop
  | keep (command : Command) : KeyStep heap id keys command keys
  | add (command : Command) {key : PropertyKey} (absent : key ∉ keys) :
      KeyStep heap id keys command (keys ++ [key])
  | remove (command : Command) (key : PropertyKey) :
      KeyStep heap id keys command (keys.filter (· ≠ key))
  | make (command : Command) (isNew : id = heap.objects.size) : KeyStep heap id keys command []
  | describe (store : StoreId) (descriptor : Descriptor) (isNew : id = heap.objects.size) :
      KeyStep heap id keys (.describe store descriptor)
        (descriptor.fields.map fun field => .ofString field.1)

section Step

variable {heap : Heap} (wellFormed : heap.WellFormed)

include wellFormed

/-- A change of one object takes the keys of every object a step. -/
private theorem keyStep_updates {after : Heap} {target : ObjectId} {map : PropertyMap}
    (updates : heap.Updates target map after) (id : ObjectId) {command : Command}
    (step : KeyStep heap target (heap.view target).keys command map.keys) :
    KeyStep heap id (heap.view id).keys command (after.view id).keys := by
  rcases heap.changed_or_apart target id with ⟨rfl, inRange⟩ | apart
  · rwa [updates.view_eq inRange]
  · rw [updates.view_apart wellFormed apart]
    exact .keep command

/-- Every command takes the keys of every object a step, allowed or not. -/
theorem Command.keyStep (command : Command) (id : ObjectId) :
    KeyStep heap id (heap.view id).keys command ((command.run heap).1.view id).keys := by
  have stay : (command.run heap).1.view id = heap.view id →
      KeyStep heap id (heap.view id).keys command ((command.run heap).1.view id).keys := by
    intro same
    rw [same]
    exact .keep command
  cases command with
  | addStore config => exact stay (wellFormed.view_addStore config id)
  | allocate store kind prototype isLiteral =>
      by_cases isNew : id = heap.objects.size
      · rw [run, wellFormed.view_allocate, if_pos isNew]
        exact .make _ isNew
      · exact stay (by rw [run, wellFormed.view_allocate, if_neg isNew])
  | describe store descriptor =>
      have updates := wellFormed.updates_describe store descriptor
      by_cases isNew : id = heap.objects.size
      · have inRange : heap.objects.size <
            (heap.allocate store .ordinary none false).1.objects.size := by
          rw [size_allocate]
          exact Nat.lt_succ_self _
        rw [run, isNew, updates.view_eq inRange, keys_addFields]
        exact .describe store descriptor rfl
      · apply stay
        have made := wellFormed.allocate store .ordinary none false
        rw [run, updates.view_other made isNew, wellFormed.view_allocate, if_neg isNew]
  | revoke proxy => exact stay (wellFormed.view_revoke proxy id)
  | setPrototypeOf target prototype =>
      exact stay (wellFormed.view_setPrototypeOf target prototype id)
  | preventExtensions target =>
      apply keyStep_updates wellFormed (wellFormed.updates_preventExtensions target)
      exact .keep _
  | defineOwn target key change =>
      obtain same | ⟨attributes, slot, -, absent, -, added⟩ | ⟨_, _, _, _, -, -, -, updates⟩ :=
        wellFormed.defineOwn_cases target key change
      · exact stay (by rw [run, same])
      · rw [run, added]
        apply keyStep_updates wellFormed
          (wellFormed.updates_addProperty target absent attributes slot)
        rw [PropertyMap.keys_add]
        exact .add _ absent
      · apply keyStep_updates wellFormed updates
        rw [PropertyMap.keys_replace]
        exact .keep _
  | writeData target key value =>
      apply keyStep_updates wellFormed (wellFormed.updates_writeData target key value)
      rw [PropertyMap.keys_write]
      exact .keep _
  | deleteOwn target key =>
      simp only [run, Heap.deleteOwn]
      split
      · exact .keep _
      split
      · apply keyStep_updates wellFormed (wellFormed.updates_removeProperty target key)
        rw [PropertyMap.keys_remove]
        exact .remove _ key
      · exact .keep _
  | setIntegrity target level =>
      apply keyStep_updates wellFormed (wellFormed.updates_setIntegrity target level)
      split
      · exact .keep _
      · rw [PropertyMap.keys_close, PropertyMap.keys_protect]
        exact .keep _
  | transition store shape step =>
      apply stay
      rw [run, (sameContent_holdShape _ _).view_eq, wellFormed.view_transition]
  | holdAll ids => exact stay ((sameContent_holdAll heap ids).view_eq id)
  | releaseAll ids => exact stay ((sameContent_releaseAll heap ids).view_eq id)
  | holdShape shape => exact stay ((sameContent_holdShape heap shape).view_eq id)
  | releaseShape shape => exact stay ((sameContent_releaseShape heap shape).view_eq id)

end Step

/-! ### Histories -/

/-- The heap after the first commands of a history that starts with one store. -/
def atMoment (config : Config) (commands : List Command) (moment : Nat) : Heap :=
  Command.runAll (.start config) (commands.take moment)

section History

variable {config : Config} {commands : List Command} {moment : Nat}

theorem atMoment_succ {command : Command} (found : commands[moment]? = some command) :
    atMoment config commands (moment + 1) = (command.run (atMoment config commands moment)).1 := by
  rw [atMoment, List.take_add_one, found, Option.toList_some, Command.runAll_concat, atMoment]

theorem atMoment_end (ended : commands[moment]? = none) :
    atMoment config commands (moment + 1) = atMoment config commands moment := by
  rw [atMoment, List.take_add_one, ended, Option.toList_none, List.append_nil, atMoment]

variable (config commands moment) in
theorem reachable_atMoment : (atMoment config commands moment).Reachable :=
  ⟨config, commands.take moment, rfl⟩

/-- Of two keys of an object, the first was created before the second, by the latest creation
of each: at some moment the second was absent and the first there, and the first has stayed. Where
both were created by one command, they are fields of one description in this order. -/
inductive CreatedBefore (config : Config) (commands : List Command) (id : ObjectId) (last : Nat)
    (first second : PropertyKey) : Prop
  | earlier (moment : Nat) (before : moment ≤ last)
      (lacks : (atMoment config commands moment).getOwn id second = none)
      (stays : ∀ later, moment ≤ later → later ≤ last →
        ((atMoment config commands later).getOwn id first).isSome = true)
  | together (moment : Nat) (before : moment < last) {store : StoreId} {descriptor : Descriptor}
      (described : commands[moment]? = some (.describe store descriptor))
      (isNew : id = (atMoment config commands moment).objects.size)
      (inOrder : [first, second].Sublist
        (descriptor.fields.map fun field => PropertyKey.ofString field.1))
      (stay : ∀ later, moment < later → later ≤ last →
        ((atMoment config commands later).getOwn id first).isSome = true ∧
          ((atMoment config commands later).getOwn id second).isSome = true)

/-- Keys that are still there stay in the order of their creation. -/
theorem CreatedBefore.succ {id : ObjectId} {last : Nat} {first second : PropertyKey}
    (created : CreatedBefore config commands id last first second)
    (firstStays : ((atMoment config commands (last + 1)).getOwn id first).isSome = true)
    (secondStays : ((atMoment config commands (last + 1)).getOwn id second).isSome = true) :
    CreatedBefore config commands id (last + 1) first second := by
  cases created with
  | earlier moment before lacks stays =>
      refine .earlier moment (Nat.le_succ_of_le before) lacks ?_
      intro later since until'
      rcases Nat.le_or_eq_of_le_succ until' with earlier | rfl
      · exact stays later since earlier
      · exact firstStays
  | together moment before described isNew inOrder stay =>
      refine .together moment (Nat.lt_succ_of_lt before) described isNew inOrder ?_
      intro later since until'
      rcases Nat.le_or_eq_of_le_succ until' with earlier | rfl
      · exact stay later since earlier
      · exact ⟨firstStays, secondStays⟩

theorem pairwise_succ {id : ObjectId} {last : Nat} {keys : List PropertyKey}
    (ordered : keys.Pairwise (CreatedBefore config commands id last))
    (stay : ∀ key ∈ keys,
      ((atMoment config commands (last + 1)).getOwn id key).isSome = true) :
    keys.Pairwise (CreatedBefore config commands id (last + 1)) := by
  apply ordered.imp_of_mem
  intro first second firstMember secondMember created
  exact created.succ (stay first firstMember) (stay second secondMember)

/-- A step leads from keys in the order of their creation to such keys again. -/
theorem KeyStep.createdBefore {id : ObjectId} {last : Nat} {command : Command}
    (found : commands[last]? = some command) {keys keys' : List PropertyKey}
    (present : ∀ key, ((atMoment config commands last).getOwn id key).isSome = true ↔ key ∈ keys)
    (present' : ∀ key ∈ keys',
      ((atMoment config commands (last + 1)).getOwn id key).isSome = true)
    (ordered : keys.Pairwise (CreatedBefore config commands id last))
    (step : KeyStep (atMoment config commands last) id keys command keys') :
    keys'.Pairwise (CreatedBefore config commands id (last + 1)) := by
  cases step with
  | keep => exact pairwise_succ ordered present'
  | @add _ added absent =>
      refine List.pairwise_append.mpr ⟨?_, List.pairwise_singleton _ _, ?_⟩
      · exact pairwise_succ ordered fun key member => present' key (List.mem_append_left _ member)
      · intro first member second isAdded
        obtain rfl := List.mem_singleton.mp isAdded
        -- the added key was absent a moment ago, when all others were there
        have lacks : (atMoment config commands last).getOwn id second = none := by
          rw [← present, Bool.not_eq_true, Option.isSome_eq_false_iff] at absent
          exact Option.isNone_iff_eq_none.mp absent
        refine .earlier last (Nat.le_succ last) lacks ?_
        intro later since until'
        rcases Nat.le_or_eq_of_le_succ until' with early | rfl
        · obtain rfl := Nat.le_antisymm early since
          exact (present first).mpr member
        · exact present' first (List.mem_append_left _ member)
  | remove _ key => exact pairwise_succ (ordered.filter _) present'
  | make => exact .nil
  | describe store descriptor isNew =>
      apply List.pairwise_of_forall_sublist
      intro first second inOrder
      refine .together last (Nat.lt_succ_self last) found isNew inOrder ?_
      intro later since until'
      obtain rfl := Nat.le_antisymm until' since
      exact ⟨present' first (inOrder.subset List.mem_cons_self),
        present' second (inOrder.subset (List.mem_cons_of_mem _ List.mem_cons_self))⟩

/-- Every object has its keys in the order of their creation. -/
theorem keys_createdBefore (id : ObjectId) (last : Nat) :
    ((atMoment config commands last).view id).keys.Pairwise
      (CreatedBefore config commands id last) := by
  induction last with
  | zero => exact .nil
  | succ last inductionHypothesis =>
      have wellFormed := (reachable_atMoment config commands last).wellFormed
      have present := wellFormed.isSome_getOwn_iff id
      have present' : ∀ key ∈ ((atMoment config commands (last + 1)).view id).keys,
          ((atMoment config commands (last + 1)).getOwn id key).isSome = true := fun key =>
        ((reachable_atMoment config commands (last + 1)).wellFormed.isSome_getOwn_iff id key).mpr
      cases found : commands[last]? with
      | none =>
          apply pairwise_succ _ present'
          rwa [atMoment_end found]
      | some command =>
          have step := command.keyStep wellFormed id
          rw [← atMoment_succ found] at step
          exact step.createdBefore found present present' inductionHypothesis

/-- All keys of an object are listed in order, whichever way the list is made. -/
theorem ownKeys_precedes (id : ObjectId) (last : Nat) :
    ((atMoment config commands last).ownKeys id).Pairwise
      (PropertyKey.Precedes (CreatedBefore config commands id last)) := by
  have wellFormed := (reachable_atMoment config commands last).wellFormed
  rw [wellFormed.ownKeys_eq]
  exact PropertyKey.sorted_precedes (wellFormed.nodup_keys id) (keys_createdBefore id last)

end History

section Listed

variable {heap : Heap} (wellFormed : heap.WellFormed) (id : ObjectId)

include wellFormed

theorem WellFormed.ownKeys_perm : (heap.ownKeys id).Perm (heap.view id).keys := by
  rw [wellFormed.ownKeys_eq]
  exact List.mergeSort_perm _ _

/-- The keys that are listed are those of the properties, each once. -/
theorem WellFormed.nodup_ownKeys : (heap.ownKeys id).Nodup :=
  (wellFormed.ownKeys_perm id).nodup_iff.mpr (wellFormed.nodup_keys id)

theorem WellFormed.mem_ownKeys (key : PropertyKey) :
    key ∈ heap.ownKeys id ↔ (heap.getOwn id key).isSome = true := by
  rw [(wellFormed.ownKeys_perm id).mem_iff, wellFormed.isSome_getOwn_iff]

end Listed

end Heap

end ObjectModel
