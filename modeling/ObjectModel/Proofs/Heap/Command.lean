import ObjectModel.Proofs.Heap.Ordinary

/-!
Contract: the changes that a heap ever undergoes.

A `Heap.Command` is one change that runs no user code. A command is allowed where the
internal methods take it: the algorithms of ordinary objects are for objects that are not
exotic, a value is written in place only where it is writable, and a definition does not
mix data and accessor fields.

`Heap.Evolves` is any number of allowed commands, `Heap.Follows` is what can be said of
objects after them, and `Heap.Preserves` is what internal methods see of that.

Does not own: that computations take allowed commands only.
-/

namespace ObjectModel

/-! ### Fields of descriptions -/

namespace Descriptor

/-- All fields by name, present or not. -/
def entries (descriptor : Descriptor) : List (String × Option Value) :=
  [("value", descriptor.value), ("writable", descriptor.writable.map .boolean),
    ("get", descriptor.get), ("set", descriptor.set),
    ("enumerable", descriptor.enumerable.map .boolean),
    ("configurable", descriptor.configurable.map .boolean)]

/-- No two fields have the same name. -/
theorem nodup_entries (descriptor : Descriptor) :
    (descriptor.entries.map fun entry => PropertyKey.ofString entry.1).Nodup := by
  have names : (["value", "writable", "get", "set", "enumerable", "configurable"].map
      PropertyKey.ofString).Nodup := by decide
  exact names

private theorem present_sublist (entries : List (String × Option Value)) :
    ((entries.filterMap fun (name, field) => field.map (name, ·)).map (·.1)).Sublist
      (entries.map (·.1)) := by
  induction entries with
  | nil => exact .slnil
  | cons head rest inductionHypothesis =>
      obtain ⟨name, field⟩ := head
      cases field with
      | none => exact inductionHypothesis.cons name
      | some value => exact inductionHypothesis.cons_cons name

theorem nodup_fields (descriptor : Descriptor) :
    (descriptor.fields.map fun field => PropertyKey.ofString field.1).Nodup := by
  have sublist := (present_sublist descriptor.entries).map PropertyKey.ofString
  rw [List.map_map, List.map_map] at sublist
  exact sublist.nodup descriptor.nodup_entries

end Descriptor

namespace Heap

/-! ### Commands -/

inductive Command where
  | addStore (config : Config)
  | allocate (store : StoreId) (kind : ObjectKind) (prototype : Option ObjectId)
      (isLiteral : Bool)
  | describe (store : StoreId) (descriptor : Descriptor)
  | revoke (proxy : ObjectId)
  | setPrototypeOf (id : ObjectId) (prototype : Option ObjectId)
  | preventExtensions (id : ObjectId)
  | defineOwn (id : ObjectId) (key : PropertyKey) (change : Descriptor)
  | writeData (id : ObjectId) (key : PropertyKey) (value : Value)
  | deleteOwn (id : ObjectId) (key : PropertyKey)
  | setIntegrity (id : ObjectId) (level : Integrity)
  | transition (store : StoreId) (shape : ShapeId) (step : Transition)
  | holdAll (ids : List ObjectId)
  | releaseAll (ids : List ObjectId)
  | holdShape (shape : ShapeId)
  | releaseShape (shape : ShapeId)

namespace Command

abbrev Answer : Command → Type
  | addStore _ => StoreId
  | allocate _ _ _ _ => ObjectId
  | describe _ _ => ObjectId
  | setPrototypeOf _ _ => Bool
  | defineOwn _ _ _ => Except TypeFault Verdict
  | deleteOwn _ _ => Verdict
  | transition _ _ _ => ShapeId
  | _ => Unit

def run : (command : Command) → Heap → Heap × command.Answer
  | addStore config, heap => heap.addStore config
  | allocate store kind prototype isLiteral, heap =>
      heap.allocate store kind prototype isLiteral
  | describe store descriptor, heap => heap.describe store descriptor
  | revoke proxy, heap => (heap.revoke proxy, ())
  | setPrototypeOf id prototype, heap => heap.setPrototypeOf id prototype
  | preventExtensions id, heap => (heap.preventExtensions id, ())
  | defineOwn id key change, heap => heap.defineOwn id key change
  | writeData id key value, heap => (heap.writeData id key value, ())
  | deleteOwn id key, heap => heap.deleteOwn id key
  | setIntegrity id level, heap => (heap.setIntegrity id level, ())
  | transition store shape step, heap =>
      let (heap, target) := heap.transition store shape step
      (heap.holdShape target, target)
  | holdAll ids, heap => (heap.holdAll ids, ())
  | releaseAll ids, heap => (heap.releaseAll ids, ())
  | holdShape shape, heap => (heap.holdShape shape, ())
  | releaseShape shape, heap => (heap.releaseShape shape, ())

/-- The heap after one command after the other. -/
def runAll (heap : Heap) (commands : List Command) : Heap :=
  commands.foldl (fun heap command => (command.run heap).1) heap

theorem runAll_concat (heap : Heap) (commands : List Command) (command : Command) :
    runAll heap (commands ++ [command]) = (command.run (runAll heap commands)).1 := by
  rw [runAll, List.foldl_append, List.foldl_cons, List.foldl_nil, runAll]

/-- What each command keeps, all of them keep. -/
theorem runAll_keeps {holds : Heap → Prop}
    (kept : ∀ heap, holds heap → ∀ command : Command, holds (command.run heap).1) {heap : Heap}
    (held : holds heap) (commands : List Command) : holds (runAll heap commands) := by
  induction commands generalizing heap with
  | nil => exact held
  | cons command rest inductionHypothesis => exact inductionHypothesis (kept heap held command)

/-- The internal methods may take the command here. -/
def Allowed (heap : Heap) : Command → Prop
  | setPrototypeOf id _ | preventExtensions id | deleteOwn id _ | setIntegrity id _ =>
      heap.isExotic id = false
  | defineOwn id _ change => heap.isExotic id = false ∧ change.isMixed = false
  | writeData id key _ =>
      heap.isExotic id = false ∧ ∃ attributes old,
        heap.lookup id key = some (attributes, .data old) ∧ attributes.writable = true
  | _ => True

end Command

/-- One allowed command. -/
inductive Step (before : Heap) : Heap → Prop
  | take (command : Command) (allowed : command.Allowed before) :
      Step before (command.run before).1

/-- Any number of allowed commands. -/
abbrev Evolves : Heap → Heap → Prop :=
  Relation.ReflTransGen Step

/-- The heaps that are reached from one store by any commands, allowed or not. -/
def Reachable (heap : Heap) : Prop :=
  ∃ config commands, heap = Command.runAll (.start config) commands

/-- What has become of the objects of a heap. A proxy may have been revoked, an object that
was not extensible has its prototype still, and properties took checked steps. -/
structure Follows (before after : Heap) : Prop where
  wellFormed : after.WellFormed
  size_le : before.objects.size ≤ after.objects.size
  kind_eq : ∀ id, id < before.objects.size → after.kind id = before.kind id ∨
    ∃ link, before.kind id = .proxy link ∧ after.kind id = .proxy { link with revoked := true }
  prototype_eq : ∀ id, id < before.objects.size → before.isExtensible id = false →
    after.prototype id = before.prototype id
  changes : ∀ id, id < before.objects.size →
    Relation.ReflTransGen PropertyMap.Change (before.view id) (after.view id)

namespace Follows

theorem refl {heap : Heap} (wellFormed : heap.WellFormed) : heap.Follows heap where
  wellFormed := wellFormed
  size_le := Nat.le_refl _
  kind_eq := fun _ _ => .inl rfl
  prototype_eq := fun _ _ _ => rfl
  changes := fun _ _ => .refl

theorem trans {first second third : Heap} (earlier : first.Follows second)
    (later : second.Follows third) : first.Follows third where
  wellFormed := later.wellFormed
  size_le := Nat.le_trans earlier.size_le later.size_le
  kind_eq := by
    intro id inRange
    have stillInRange := Nat.lt_of_lt_of_le inRange earlier.size_le
    rcases later.kind_eq id stillInRange with same | ⟨link, wasProxy, isRevoked⟩
    · rw [same]
      exact earlier.kind_eq id inRange
    · refine .inr ?_
      rcases earlier.kind_eq id inRange with same | ⟨link', wasProxy', isRevoked'⟩
      · exact ⟨link, same ▸ wasProxy, isRevoked⟩
      · rw [isRevoked'] at wasProxy
        cases wasProxy
        exact ⟨link', wasProxy', isRevoked⟩
  prototype_eq := by
    intro id inRange isClosed
    have stillInRange := Nat.lt_of_lt_of_le inRange earlier.size_le
    have stillClosed : second.isExtensible id = false := by
      rw [isExtensible_eq] at isClosed ⊢
      exact (PropertyMap.preserves_of_changes (earlier.changes id inRange)).closed isClosed
    rw [later.prototype_eq id stillInRange stillClosed, earlier.prototype_eq id inRange isClosed]
  changes := fun id inRange => (earlier.changes id inRange).trans
    (later.changes id (Nat.lt_of_lt_of_le inRange earlier.size_le))

/-- An object is exotic for good, or never. -/
theorem isExotic_eq {before after : Heap} (follows : before.Follows after) {id : ObjectId}
    (inRange : id < before.objects.size) : after.isExotic id = before.isExotic id := by
  rw [isExotic, isExotic, proxy?, proxy?]
  rcases follows.kind_eq id inRange with same | ⟨link, wasProxy, isRevoked⟩
  · rw [same]
  · rw [wasProxy, isRevoked]
    rfl

end Follows

/-! ### Commands on one object -/

section Step

variable {before after : Heap} (wellFormed : before.WellFormed)

include wellFormed

theorem SameContent.follows (same : after.SameContent before) : before.Follows after where
  wellFormed := wellFormed.congr same
  size_le := Nat.le_of_eq (congrArg Array.size same.objects_eq).symm
  kind_eq := fun id _ => .inl (same.kind_eq id)
  prototype_eq := fun id _ _ => same.prototype_eq id
  changes := fun id _ => by rw [same.view_eq]

theorem Moves.follows {id : ObjectId} (moves : before.Moves id after) : before.Follows after := by
  obtain ⟨map, updates, changes⟩ := moves
  refine ⟨updates.wellFormed, Nat.le_of_eq updates.size_eq.symm,
    fun other _ => .inl (updates.kind_eq other), fun other _ _ => updates.prototype_eq other, ?_⟩
  intro other inRange
  by_cases same : other = id
  · subst same
    rw [updates.view_eq inRange]
    exact changes
  · rw [updates.view_other wellFormed same]

end Step

/-- An object replaced by one with the same storage. -/
theorem view_setObject {heap : Heap} (wellFormed : heap.WellFormed) {id : ObjectId}
    {object : Object} (storage_eq : object.storage = (heap.object id).storage) :
    (heap.setObject id object).WellFormed ∧
      ∀ other, (heap.setObject id object).view other = heap.view other := by
  have content := sameContent_setObject heap id object
  have storages : ∀ other,
      ((heap.setObject id object).object other).storage = (heap.object other).storage := by
    intro other
    rcases heap.changed_or_apart id other with ⟨rfl, inRange⟩ | apart
    · rw [object_setObject inRange, storage_eq]
    · rw [object_setObject_other heap object apart]
  have grown : (heap.setObject id object).shapes.Extends heap.shapes :=
    .of_shapes_eq content.shapes_eq
  have stores : ∀ store, (heap.setObject id object).store store = heap.store store :=
    fun store => content.store_eq store
  have grows : (heap.setObject id object).Grows heap :=
    ⟨grown, congrArg Array.size content.stores_eq, fun store => by rw [stores],
      fun store => by rw [stores]⟩
  refine ⟨wellFormed.grow (wellFormed.faithful.congr content.shapes_eq) grows ?_, ?_⟩
  · intro other
    rw [storages]
    exact (wellFormed.storage other).mono grown
  · intro other
    rw [view, storages]
    exact (wellFormed.storage other).view_mono grown

theorem WellFormed.view_revoke {heap : Heap} (wellFormed : heap.WellFormed)
    (proxy id : ObjectId) : (heap.revoke proxy).view id = heap.view id := by
  unfold Heap.revoke
  split
  · apply (view_setObject wellFormed ?_).2
    rfl
  · rfl

theorem WellFormed.view_setPrototypeOf {heap : Heap} (wellFormed : heap.WellFormed)
    (target : ObjectId) (prototype : Option ObjectId) (id : ObjectId) :
    (heap.setPrototypeOf target prototype).1.view id = heap.view id := by
  unfold Heap.setPrototypeOf
  split
  · rfl
  split
  · apply (view_setObject wellFormed ?_).2
    rfl
  · rfl

/-- An object that has the storage of the one it replaces changes the heap no further. -/
private theorem follows_setObject {heap : Heap} (wellFormed : heap.WellFormed) {id : ObjectId}
    {object : Object} (storage_eq : object.storage = (heap.object id).storage)
    (kind_eq : object.kind = heap.kind id ∨
      ∃ link, heap.kind id = .proxy link ∧ object.kind = .proxy { link with revoked := true })
    (prototype_eq : heap.isExtensible id = false → object.prototype = heap.prototype id) :
    heap.Follows (heap.setObject id object) := by
  obtain ⟨stays, views⟩ := view_setObject wellFormed storage_eq
  refine ⟨stays, Nat.le_of_eq (size_setObject heap id object).symm, ?_, ?_, ?_⟩
  · intro other inRange
    by_cases same : other = id
    · subst same
      rw [kind, object_setObject inRange]
      exact kind_eq
    · exact .inl (by rw [kind, object_setObject_other heap object (.inl same), kind])
  · intro other inRange isClosed
    by_cases same : other = id
    · subst same
      rw [prototype, object_setObject inRange]
      exact prototype_eq isClosed
    · rw [prototype, object_setObject_other heap object (.inl same), prototype]
  · intro other _
    rw [views]

/-! ### New objects -/

theorem WellFormed.follows_allocate {heap : Heap} (wellFormed : heap.WellFormed)
    (store : StoreId) (kind : ObjectKind) (prototype : Option ObjectId) (isLiteral : Bool) :
    heap.Follows (heap.allocate store kind prototype isLiteral).1 := by
  have old : ∀ id, id < heap.objects.size →
      (heap.allocate store kind prototype isLiteral).1.object id = heap.object id := by
    intro id inRange
    rw [object_allocate, if_neg (Nat.ne_of_lt inRange)]
  refine ⟨wellFormed.allocate store kind prototype isLiteral, ?_, ?_, ?_, ?_⟩
  · rw [size_allocate]
    exact Nat.le_succ _
  · intro id inRange
    exact .inl (by rw [Heap.kind, old id inRange, Heap.kind])
  · intro id inRange _
    rw [Heap.prototype, old id inRange, Heap.prototype]
  · intro id inRange
    rw [wellFormed.view_allocate, if_neg (Nat.ne_of_lt inRange)]

theorem WellFormed.follows_addStore {heap : Heap} (wellFormed : heap.WellFormed)
    (config : Config) : heap.Follows (heap.addStore config).1 where
  wellFormed := wellFormed.addStore config
  size_le := Nat.le_refl _
  kind_eq := fun _ _ => .inl rfl
  prototype_eq := fun _ _ _ => rfl
  changes := fun id _ => by rw [wellFormed.view_addStore]

/-- The map with the fields of a description added, one after the other. -/
def addFields (map : PropertyMap) (fields : List (String × Value)) : PropertyMap :=
  fields.foldl (fun map (name, value) => map.add (.ofString name) .assigned (.data value)) map

theorem keys_addFields (map : PropertyMap) (fields : List (String × Value)) :
    (addFields map fields).keys = map.keys ++ fields.map fun field => .ofString field.1 := by
  induction fields generalizing map with
  | nil => simp [addFields]
  | cons head rest inductionHypothesis =>
      have later := inductionHypothesis (map.add (.ofString head.1) .assigned (.data head.2))
      rw [PropertyMap.keys_add, List.append_assoc] at later
      exact later

theorem find?_addFields (map : PropertyMap) (fields : List (String × Value))
    (key : PropertyKey) :
    (addFields map fields).find? key = (map.find? key).or
      ((fields.find? fun field => PropertyKey.ofString field.1 = key).map fun field =>
        (.assigned, .data field.2)) := by
  induction fields generalizing map with
  | nil => simp [addFields]
  | cons head rest inductionHypothesis =>
      have later := inductionHypothesis (map.add (.ofString head.1) .assigned (.data head.2))
      rw [PropertyMap.find?_add, Option.or_assoc] at later
      refine Eq.trans later (congrArg _ ?_)
      by_cases same : key = .ofString head.1
      · simp [same, Attributes.stored, Slot.kind]
      · simp [same, Ne.symm same]

theorem extensible_addFields (map : PropertyMap) (fields : List (String × Value)) :
    (addFields map fields).extensible = map.extensible := by
  induction fields generalizing map with
  | nil => rfl
  | cons head rest inductionHypothesis =>
      exact (inductionHypothesis (map.add (.ofString head.1) .assigned (.data head.2))).trans
        (PropertyMap.extensible_add _ _ _ _)

/-- The object has no properties with the keys of the fields, which have different names. -/
structure LacksFields (heap : Heap) (id : ObjectId) (fields : List (String × Value)) : Prop where
  wellFormed : heap.WellFormed
  inRange : id < heap.objects.size
  nodup : (fields.map fun field => PropertyKey.ofString field.1).Nodup
  absent : ∀ field ∈ fields, .ofString field.1 ∉ (heap.view id).keys

/-- The first field is added, and the others are lacking still. -/
theorem LacksFields.step {heap : Heap} {id : ObjectId} {name : String} {value : Value}
    {rest : List (String × Value)} (lacks : heap.LacksFields id ((name, value) :: rest)) :
    let after := heap.addProperty id (.ofString name) .assigned (.data value)
    heap.Updates id ((heap.view id).add (.ofString name) .assigned (.data value)) after ∧
      after.LacksFields id rest := by
  obtain ⟨wellFormed, inRange, nodup, absent⟩ := lacks
  rw [List.map_cons, List.nodup_cons] at nodup
  have updates := wellFormed.updates_addProperty id (absent _ List.mem_cons_self) .assigned
    (.data value)
  refine ⟨updates, updates.wellFormed, by rwa [updates.size_eq], nodup.2, ?_⟩
  intro field member present
  rw [updates.view_eq inRange, PropertyMap.keys_add, List.mem_append,
    List.mem_singleton] at present
  rcases present with old | new
  · exact absent field (List.mem_cons_of_mem _ member) old
  · exact nodup.1 (List.mem_map.mpr ⟨field, member, new⟩)

/-- Properties that are added under new keys, one after the other. -/
private theorem updates_addFields {heap : Heap} {id : ObjectId} (fields : List (String × Value))
    (lacks : heap.LacksFields id fields) :
    heap.Updates id (addFields (heap.view id) fields)
      (fields.foldl (fun heap (name, value) =>
        heap.addProperty id (.ofString name) .assigned (.data value)) heap) := by
  induction fields generalizing heap with
  | nil => exact .refl lacks.wellFormed rfl
  | cons head rest inductionHypothesis =>
      obtain ⟨first, stillLacks⟩ := lacks.step
      have later := inductionHypothesis stillLacks
      rw [first.view_eq lacks.inRange] at later
      exact first.trans later

/-- A new plain object has none of the fields of a description. -/
theorem WellFormed.lacksFields_allocate {heap : Heap} (wellFormed : heap.WellFormed)
    (store : StoreId) (descriptor : Descriptor) :
    (heap.allocate store .ordinary none false).1.LacksFields heap.objects.size
      descriptor.fields where
  wellFormed := wellFormed.allocate store .ordinary none false
  inRange := by
    rw [size_allocate]
    exact Nat.lt_succ_self _
  nodup := descriptor.nodup_fields
  absent := fun field _ present => by
    rw [wellFormed.view_allocate, if_pos rfl] at present
    contradiction

/-- A description is turned into a new object with its fields. -/
theorem WellFormed.updates_describe {heap : Heap} (wellFormed : heap.WellFormed)
    (store : StoreId) (descriptor : Descriptor) :
    (heap.allocate store .ordinary none false).1.Updates heap.objects.size
      (addFields .empty descriptor.fields) (heap.describe store descriptor).1 := by
  have updates :=
    updates_addFields descriptor.fields (wellFormed.lacksFields_allocate store descriptor)
  rw [wellFormed.view_allocate, if_pos rfl] at updates
  exact updates

theorem WellFormed.follows_describe {heap : Heap} (wellFormed : heap.WellFormed)
    (store : StoreId) (descriptor : Descriptor) :
    heap.Follows (heap.describe store descriptor).1 := by
  have made := wellFormed.follows_allocate store .ordinary none false
  have updates := wellFormed.updates_describe store descriptor
  refine ⟨updates.wellFormed, ?_, ?_, ?_, ?_⟩
  · rw [updates.size_eq]
    exact made.size_le
  · intro id old
    rw [updates.kind_eq]
    exact made.kind_eq id old
  · intro id old isClosed
    rw [updates.prototype_eq]
    exact made.prototype_eq id old isClosed
  · intro id old
    rw [updates.view_other made.wellFormed (Nat.ne_of_lt old)]
    exact made.changes id old

/-! ### Every command -/

theorem WellFormed.view_transition {heap : Heap} (wellFormed : heap.WellFormed)
    (store : StoreId) (shape : ShapeId) (step : Transition) (id : ObjectId) :
    (heap.transition store shape step).1.view id = heap.view id := by
  obtain ⟨-, grows, objects_eq⟩ := wellFormed.transition_keeps store shape step
  have sameObject : (heap.transition store shape step).1.object id = heap.object id := by
    rw [object, object, objects_eq]
  rw [view, sameObject]
  exact (wellFormed.storage id).view_mono grows.shapes

theorem WellFormed.follows_transition {heap : Heap} (wellFormed : heap.WellFormed)
    (store : StoreId) (shape : ShapeId) (step : Transition) :
    heap.Follows (heap.transition store shape step).1 := by
  obtain ⟨faithful, grows, objects_eq⟩ := wellFormed.transition_keeps store shape step
  have sameObject : ∀ id, (heap.transition store shape step).1.object id = heap.object id := by
    intro id
    rw [object, object, objects_eq]
  refine ⟨wellFormed.grow faithful grows ?_, Nat.le_of_eq (congrArg Array.size objects_eq).symm,
    ?_, ?_, ?_⟩
  · intro id
    rw [sameObject]
    exact (wellFormed.storage id).mono grows.shapes
  · intro id _
    exact .inl (by rw [kind, sameObject, kind])
  · intro id _ _
    rw [prototype, sameObject, prototype]
  · intro id _
    rw [wellFormed.view_transition store shape step]

/-- An allowed command keeps a heap well-formed, and every object follows. -/
theorem Command.follows {heap : Heap} (wellFormed : heap.WellFormed) (command : Command)
    (allowed : command.Allowed heap) : heap.Follows (command.run heap).1 := by
  cases command with
  | addStore config => exact wellFormed.follows_addStore config
  | allocate store kind prototype isLiteral =>
      exact wellFormed.follows_allocate store kind prototype isLiteral
  | describe store descriptor => exact wellFormed.follows_describe store descriptor
  | revoke proxy =>
      simp only [run, Heap.revoke]
      cases found : heap.proxy? proxy with
      | none => exact .refl wellFormed
      | some link =>
          exact follows_setObject wellFormed rfl (.inr ⟨link, proxy?_eq_some.mp found, rfl⟩)
            fun _ => rfl
  | setPrototypeOf id prototype =>
      simp only [run, Heap.setPrototypeOf]
      split
      · exact .refl wellFormed
      · split
        · rename_i admitted
          refine follows_setObject wellFormed rfl (.inl rfl) ?_
          intro isClosed
          rw [isClosed] at admitted
          contradiction
        · exact .refl wellFormed
  | preventExtensions id => exact (wellFormed.moves_preventExtensions id).follows wellFormed
  | defineOwn id key change =>
      exact (wellFormed.moves_defineOwn id allowed.2 key).follows wellFormed
  | writeData id key value =>
      obtain ⟨-, attributes, old, found, writable⟩ := allowed
      exact (wellFormed.moves_writeData id found writable value).follows wellFormed
  | deleteOwn id key => exact (wellFormed.moves_deleteOwn id key).follows wellFormed
  | setIntegrity id level => exact (wellFormed.moves_setIntegrity id level).follows wellFormed
  | transition store shape step =>
      have stepped := wellFormed.follows_transition store shape step
      exact stepped.trans ((sameContent_holdShape _ _).follows stepped.wellFormed)
  | holdAll ids => exact (sameContent_holdAll heap ids).follows wellFormed
  | releaseAll ids => exact (sameContent_releaseAll heap ids).follows wellFormed
  | holdShape shape => exact (sameContent_holdShape heap shape).follows wellFormed
  | releaseShape shape => exact (sameContent_releaseShape heap shape).follows wellFormed

theorem WellFormed.follows {before after : Heap} (wellFormed : before.WellFormed)
    (evolves : Evolves before after) : before.Follows after := by
  induction evolves with
  | refl => exact .refl wellFormed
  | tail _ step inductionHypothesis =>
      cases step with
      | take command allowed =>
          exact inductionHypothesis.trans
            (command.follows inductionHypothesis.wellFormed allowed)

/-! ### What is preserved -/

/-- What outlasts every run, as internal methods see it. -/
structure Preserves (before : Heap) (id : ObjectId) (after : Heap) : Prop where
  isExotic_eq : after.isExotic id = before.isExotic id
  closed : before.isExtensible id = false → after.isExtensible id = false
  prototype_eq : before.isExtensible id = false → after.prototype id = before.prototype id
  keys : before.isExtensible id = false →
    ∀ key, before.getOwn id key = none → after.getOwn id key = none
  fixed : ∀ key current, before.getOwn id key = some current →
    current.isConfigurable = false →
      ∃ result, after.getOwn id key = some result ∧ current.Persists result

theorem Follows.preserves {before after : Heap} (follows : before.Follows after)
    (wellFormed : before.WellFormed) {id : ObjectId} (inRange : id < before.objects.size) :
    before.Preserves id after := by
  have properties := PropertyMap.preserves_of_changes (follows.changes id inRange)
  refine ⟨follows.isExotic_eq inRange, ?_, follows.prototype_eq id inRange, ?_, ?_⟩
  · rw [isExtensible_eq, isExtensible_eq]
    exact properties.closed
  · intro isClosed key absent
    rw [isExtensible_eq] at isClosed
    rw [wellFormed.getOwn_eq_none_iff] at absent
    rw [follows.wellFormed.getOwn_eq_none_iff]
    exact fun member => absent (properties.keys isClosed key member)
  · intro key current found notConfigurable
    rw [wellFormed.getOwn_eq] at found
    obtain ⟨result, resultFound, persists⟩ := properties.fixed key current found notConfigurable
    exact ⟨result, by rw [follows.wellFormed.getOwn_eq, resultFound], persists⟩

/-! ### Reachable heaps -/

/-- A command that is not allowed may do anything to one object, but nothing worse. -/
theorem Command.wellFormed {heap : Heap} (wellFormed : heap.WellFormed) (command : Command) :
    (command.run heap).1.WellFormed := by
  cases command with
  | setPrototypeOf id prototype =>
      simp only [run, Heap.setPrototypeOf]
      split
      · exact wellFormed
      · split
        · refine (view_setObject wellFormed ?_).1
          rfl
        · exact wellFormed
  | preventExtensions id => exact (wellFormed.updates_preventExtensions id).wellFormed
  | defineOwn id key change =>
      obtain ⟨_, updates⟩ := wellFormed.updates_defineOwn id key change
      exact updates.wellFormed
  | writeData id key value => exact (wellFormed.updates_writeData id key value).wellFormed
  | deleteOwn id key =>
      obtain ⟨_, updates, -⟩ := wellFormed.moves_deleteOwn id key
      exact updates.wellFormed
  | setIntegrity id level => exact (wellFormed.updates_setIntegrity id level).wellFormed
  | _ => exact (Command.follows wellFormed _ (by trivial)).wellFormed

theorem Reachable.wellFormed {heap : Heap} (reachable : heap.Reachable) : heap.WellFormed := by
  obtain ⟨config, commands, rfl⟩ := reachable
  exact Command.runAll_keeps (fun _ wellFormed => Command.wellFormed wellFormed)
    (wellFormed_start config) commands

end Heap

end ObjectModel
