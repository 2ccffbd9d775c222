import ObjectModel.Proofs.Heap.DictionaryMode
import ObjectModel.Proofs.Machine.Invariant

/-!
Contract: the objects that are dictionaries in a run.

How an object was made, by which store and whether as a literal, never changes
(`Heap.KeepsMaking`). So the policy for an object is that of its making, and what the policy says
of a new object holds of it ever after (`Heap.Managed`). In heaps that programs reach, no
functions and no proxies are dictionaries (`Heap.PlainLiterals`).

Does not own: which definitions make dictionaries (`Heap.DictionaryMode`).
-/

namespace ObjectModel

namespace Heap

/-! ### How objects are made -/

/-- Whether objects are literals and plain objects, and the configuration of their stores, are as
before. -/
structure KeepsMaking (before after : Heap) : Prop where
  size_eq : after.objects.size = before.objects.size
  isLiteral_eq : ∀ id, (after.object id).isLiteral = (before.object id).isLiteral
  store_eq : ∀ id, (after.object id).store = (before.object id).store
  plain_iff : ∀ id, after.kind id = .ordinary ↔ before.kind id = .ordinary
  stores_le : before.stores.size ≤ after.stores.size
  config_eq : ∀ store < before.stores.size,
    (after.store store).config = (before.store store).config

theorem SameContent.keepsMaking {after before : Heap} (same : after.SameContent before) :
    before.KeepsMaking after where
  size_eq := by rw [same.objects_eq]
  isLiteral_eq := fun id => by rw [same.object_eq]
  store_eq := fun id => by rw [same.object_eq]
  plain_iff := fun id => by rw [same.kind_eq]
  stores_le := Nat.le_of_eq (congrArg Array.size same.stores_eq).symm
  config_eq := fun store _ => by rw [same.store_eq]

theorem Updates.keepsMaking {before after : Heap} {id : ObjectId} {map : PropertyMap}
    (updates : before.Updates id map after) : before.KeepsMaking after where
  size_eq := updates.size_eq
  isLiteral_eq := fun other => by rw [updates.object_frame other]
  store_eq := fun other => by rw [updates.object_frame other]
  plain_iff := fun other => by rw [updates.kind_eq]
  stores_le := Nat.le_of_eq updates.grows.stores_size_eq.symm
  config_eq := fun store _ => updates.grows.config_eq store

theorem keepsMaking_setObject {heap : Heap} {id : ObjectId} {object : Object}
    (isLiteral_eq : object.isLiteral = (heap.object id).isLiteral)
    (store_eq : object.store = (heap.object id).store)
    (plain_iff : object.kind = .ordinary ↔ heap.kind id = .ordinary) :
    heap.KeepsMaking (heap.setObject id object) := by
  have content := sameContent_setObject heap id object
  have objects : ∀ other, (other = id ∧ (heap.setObject id object).object other = object) ∨
      (heap.setObject id object).object other = heap.object other := by
    intro other
    rcases heap.changed_or_apart id other with ⟨rfl, inRange⟩ | apart
    · exact .inl ⟨rfl, object_setObject inRange object⟩
    · exact .inr (object_setObject_other heap object apart)
  refine ⟨size_setObject heap id object, fun other => ?_, fun other => ?_, fun other => ?_,
    Nat.le_of_eq (congrArg Array.size content.stores_eq).symm, fun store _ => ?_⟩
  · rcases objects other with ⟨rfl, isObject⟩ | same
    · rw [isObject, isLiteral_eq]
    · rw [same]
  · rcases objects other with ⟨rfl, isObject⟩ | same
    · rw [isObject, store_eq]
    · rw [same]
  · rcases objects other with ⟨rfl, isObject⟩ | same
    · rw [kind, isObject, plain_iff]
    · rw [kind, same, kind]
  · rw [content.store_eq]
    rfl

section Commands

variable {heap : Heap} (wellFormed : heap.WellFormed)

include wellFormed

/-- A command makes at most one object, and keeps how the others were made. -/
theorem Command.keepsMaking (command : Command) :
    heap.KeepsMaking (command.run heap).1 ∨
      ∃ store kind prototype isLiteral,
        (heap.allocate store kind prototype isLiteral).1.KeepsMaking (command.run heap).1 ∧
          (command = .allocate store kind prototype isLiteral ∨ isLiteral = false) := by
  cases command with
  | addStore config =>
      left
      refine ⟨rfl, fun _ => rfl, fun _ => rfl, fun _ => .rfl, ?_, fun store inRange => ?_⟩
      · show heap.stores.size ≤ (heap.stores.push _).size
        rw [Array.size_push]
        exact Nat.le_succ _
      · rw [run, store_addStore, if_neg (Nat.ne_of_lt inRange)]
  | allocate store kind prototype isLiteral =>
      exact .inr ⟨store, kind, prototype, isLiteral, (SameContent.refl _).keepsMaking, .inl rfl⟩
  | describe store descriptor =>
      exact .inr ⟨store, .ordinary, none, false,
        (wellFormed.updates_describe store descriptor).keepsMaking, .inr rfl⟩
  | revoke proxy =>
      left
      simp only [run, Heap.revoke]
      cases found : heap.proxy? proxy with
      | none => exact (SameContent.refl heap).keepsMaking
      | some link =>
          apply keepsMaking_setObject
          · rfl
          · rfl
          · rw [proxy?_eq_some.mp found]
            simp
  | setPrototypeOf id prototype =>
      left
      simp only [run, Heap.setPrototypeOf]
      split
      · exact (SameContent.refl heap).keepsMaking
      split
      · apply keepsMaking_setObject
        · rfl
        · rfl
        · rfl
      · exact (SameContent.refl heap).keepsMaking
  | preventExtensions id => exact .inl (wellFormed.updates_preventExtensions id).keepsMaking
  | defineOwn id key change =>
      obtain ⟨_, updates⟩ := wellFormed.updates_defineOwn id key change
      exact .inl updates.keepsMaking
  | writeData id key value => exact .inl (wellFormed.updates_writeData id key value).keepsMaking
  | deleteOwn id key =>
      obtain ⟨_, updates, -⟩ := wellFormed.moves_deleteOwn id key
      exact .inl updates.keepsMaking
  | setIntegrity id level => exact .inl (wellFormed.updates_setIntegrity id level).keepsMaking
  | transition store shape step =>
      left
      have objects_eq : (run (.transition store shape step) heap).1.objects = heap.objects := rfl
      have grows := (wellFormed.transition_keeps store shape step).2.1
      refine ⟨by rw [objects_eq], fun id => ?_, fun id => ?_, fun id => ?_,
        Nat.le_of_eq grows.stores_size_eq.symm, fun store _ => grows.config_eq store⟩
      · rw [object, objects_eq, object]
      · rw [object, objects_eq, object]
      · rw [kind, object, objects_eq, kind, object]
  | holdAll ids => exact .inl (sameContent_holdAll heap ids).keepsMaking
  | releaseAll ids => exact .inl (sameContent_releaseAll heap ids).keepsMaking
  | holdShape shape => exact .inl (sameContent_holdShape heap shape).keepsMaking
  | releaseShape shape => exact .inl (sameContent_releaseShape heap shape).keepsMaking

/-- Nothing that decides about the form of an object changes, if its store exists. -/
theorem Command.policy_eq (command : Command) {id : ObjectId} (inRange : id < heap.objects.size)
    (hasStore : (heap.object id).store < heap.stores.size) :
    ((command.run heap).1.object id).isLiteral = (heap.object id).isLiteral ∧
      ((command.run heap).1.object id).store < (command.run heap).1.stores.size ∧
      (command.run heap).1.config id = heap.config id := by
  obtain keeps | ⟨store, kind, prototype, isLiteral, keeps, -⟩ := command.keepsMaking wellFormed
  · rw [keeps.isLiteral_eq, keeps.store_eq, config, keeps.store_eq, keeps.config_eq _ hasStore]
    exact ⟨rfl, Nat.lt_of_lt_of_le hasStore keeps.stores_le, rfl⟩
  · have same := sameContent_allocate heap store kind prototype isLiteral
    have old : (heap.allocate store kind prototype isLiteral).1.object id = heap.object id := by
      rw [object_allocate, if_neg (Nat.ne_of_lt inRange)]
    have stillStore : (heap.object id).store <
        (heap.allocate store kind prototype isLiteral).1.stores.size := by
      rwa [same.stores_eq]
    rw [keeps.isLiteral_eq, keeps.store_eq, config, keeps.store_eq, old,
      keeps.config_eq _ stillStore, same.store_eq]
    exact ⟨rfl, Nat.lt_of_lt_of_le stillStore keeps.stores_le, rfl⟩

end Commands

/-! ### From the making on -/

/-- What the policy of its making says of an object. -/
structure Managed (config : Config) (isLiteral : Bool) (id : ObjectId) (heap : Heap) : Prop where
  wellFormed : heap.WellFormed
  inRange : id < heap.objects.size
  hasStore : (heap.object id).store < heap.stores.size
  config_eq : heap.config id = config
  isLiteral_eq : (heap.object id).isLiteral = isLiteral
  dictionary : heap.isDictionary id = true →
    isLiteral = true ∧ config.dictionaryObjects = true
  shaped : heap.isDictionary id = false → isLiteral = true → config.dictionaryObjects = true →
    (heap.ownKeys id).length ≤ config.dictionaryThreshold

/-- No command breaks the policy. -/
theorem Managed.command {config : Config} {isLiteral : Bool} {id : ObjectId} {heap : Heap}
    (managed : heap.Managed config isLiteral id) (command : Command) :
    (command.run heap).1.Managed config isLiteral id := by
  obtain ⟨wellFormed, inRange, hasStore, rfl, rfl, dictionary, shaped⟩ := managed
  obtain ⟨isLiteral_eq, stillStore, config_eq⟩ := command.policy_eq wellFormed inRange hasStore
  have stillWellFormed := command.wellFormed wellFormed
  have stillInRange := Nat.lt_of_lt_of_le inRange (command.size_le wellFormed)
  have step := command.formStep wellFormed id
  have length_eq := (wellFormed.ownKeys_perm id).length_eq
  have length_eq' := (stillWellFormed.ownKeys_perm id).length_eq
  refine ⟨stillWellFormed, stillInRange, stillStore, config_eq, isLiteral_eq, ?_, ?_⟩
  · intro isDictionary
    cases step with
    | keep _ form_eq _ => exact dictionary (form_eq ▸ isDictionary)
    | add change _ form_iff _ =>
        rcases form_iff.mp isDictionary with already | outgrows
        · exact dictionary already
        · exact ⟨outgrows.isLiteral, outgrows.enabled⟩
  · intro isShaped literal enabled
    cases step with
    | keep _ form_eq keys =>
        have bounded := shaped (form_eq ▸ isShaped) literal enabled
        have fewer := (keys inRange).length_le
        omega
    | add change _ form_iff keys_eq =>
        -- what is not too much leaves room for one more
        rw [← Bool.not_eq_true, form_iff, not_or, Bool.not_eq_true] at isShaped
        have room : ¬(heap.config id).dictionaryThreshold ≤ (heap.ownKeys id).length :=
          fun full => isShaped.2 ⟨literal, enabled, .inr full⟩
        rw [length_eq', keys_eq inRange, List.length_append, List.length_singleton]
        omega

/-- A new object is on a shape and has no keys. -/
theorem WellFormed.managed_allocate {heap : Heap} (wellFormed : heap.WellFormed)
    {store : StoreId} (hasStore : store < heap.stores.size) (kind : ObjectKind)
    (prototype : Option ObjectId) (isLiteral : Bool) :
    (heap.allocate store kind prototype isLiteral).1.Managed (heap.store store).config isLiteral
      heap.objects.size := by
  have same := sameContent_allocate heap store kind prototype isLiteral
  have made := wellFormed.allocate store kind prototype isLiteral
  have isNew : (heap.allocate store kind prototype isLiteral).1.object heap.objects.size =
      heap.freshObject store kind prototype isLiteral := by
    rw [object_allocate, if_pos rfl]
  refine ⟨made, ?_, ?_, ?_, ?_, fun isDictionary => ?_, fun _ _ _ => ?_⟩
  · rw [size_allocate]
    exact Nat.lt_succ_self _
  · rw [isNew, same.stores_eq]
    exact hasStore
  · rw [config, isNew, same.store_eq]
    rfl
  · rw [isNew]
    rfl
  · rw [isDictionary_of_shaped (congrArg Object.storage isNew)] at isDictionary
    contradiction
  · rw [(made.ownKeys_perm _).length_eq, wellFormed.view_allocate, if_pos rfl]
    exact Nat.zero_le _

/-! ### Reached heaps -/

/-- Only plain objects are literals, and only literals are dictionaries. -/
structure PlainLiterals (heap : Heap) : Prop where
  wellFormed : heap.WellFormed
  plain : ∀ id, (heap.object id).isLiteral = true → heap.kind id = .ordinary
  literal : ∀ id, heap.isDictionary id = true → (heap.object id).isLiteral = true

theorem plainLiterals_start (config : Config) : (start config).PlainLiterals where
  wellFormed := wellFormed_start config
  plain := fun _ isLiteral => Bool.noConfusion isLiteral
  literal := fun _ isDictionary => Bool.noConfusion isDictionary

/-- A command that makes plain literals only. -/
theorem PlainLiterals.command {heap : Heap} (holds : heap.PlainLiterals) (command : Command)
    (within : command.Within .all heap) : (command.run heap).1.PlainLiterals := by
  obtain ⟨wellFormed, plain, literal⟩ := holds
  have making := command.keepsMaking wellFormed
  refine ⟨command.wellFormed wellFormed, fun id isLiteral => ?_, fun id isDictionary => ?_⟩
  · obtain keeps | ⟨store, kind, prototype, made, keeps, isMaking⟩ := making
    · rw [keeps.isLiteral_eq] at isLiteral
      exact (keeps.plain_iff id).mpr (plain id isLiteral)
    · rw [keeps.isLiteral_eq, object_allocate] at isLiteral
      rw [keeps.plain_iff, Heap.kind, object_allocate]
      split at isLiteral
      · obtain rfl : made = true := isLiteral
        rw [if_pos ‹_›]
        rcases isMaking with rfl | notLiteral
        · exact within.2.2 rfl
        · contradiction
      · rw [if_neg ‹_›]
        exact plain id isLiteral
  · have wasLiteral : (heap.object id).isLiteral = true := by
      cases command.formStep wellFormed id with
      | keep _ form_eq _ => exact literal id (form_eq ▸ isDictionary)
      | add change _ form_iff _ =>
          exact (form_iff.mp isDictionary).elim (literal id) Outgrows.isLiteral
    obtain keeps | ⟨store, kind, prototype, made, keeps, -⟩ := making
    · rw [keeps.isLiteral_eq, wasLiteral]
    · rw [keeps.isLiteral_eq, object_allocate, if_neg, wasLiteral]
      rintro rfl
      rw [object_outside (Nat.le_refl _)] at wasLiteral
      contradiction

end Heap

/-! ### Programs -/

theorem Heap.IsReached.plainLiterals {heap : Heap} (reached : heap.IsReached) :
    heap.PlainLiterals := by
  obtain ⟨σ, α, host, script, config, fuel, state, rfl⟩ := reached
  exact script.run_keeps (fun _ held command => held.command command) host fuel _
    (plainLiterals_start config)

/-- Which objects are dictionaries, in all that may happen from a heap that a program reaches,
whatever commands the program goes on with. Functions, proxies and objects that are not literals
are none. What becomes one is an object that gets a new property while that is too much for it,
and it stays one; no change of its properties makes a shape any more. At any time, a new object of a
store that has dictionaries becomes one before it has more properties than the threshold, and a new
object of another store never does. -/
theorem Heap.IsReached.dictionary_policy {heap : Heap} (reached : heap.IsReached) :
    (∀ (σ α : Type) (host : Host σ) (script : Script σ α) (fuel depth : Nat) (client : σ),
      ∃ commands, (Exec.reached (script.grounded.run host.grounded fuel)
        ⟨heap, depth, client⟩).heap = Heap.Command.runAll heap commands) ∧
    (∀ id, (heap.object id).isLiteral = false ∨ heap.kind id ≠ .ordinary →
      heap.isDictionary id = false) ∧
    (∀ (commands : List Heap.Command) (command : Heap.Command) (id : ObjectId),
      let before := Heap.Command.runAll heap commands
      let after := (command.run before).1
      (after.isDictionary id = true ↔ before.isDictionary id = true ∨
        ∃ key change, command = .defineOwn id key change ∧ before.getOwn id key = none ∧
          (after.getOwn id key).isSome = true ∧ before.Outgrows id key) ∧
      (command.owner? = some id → after.isDictionary id = true → after.SameShapes before)) ∧
    ∀ (earlier commands : List Heap.Command) (store : StoreId) (kind : ObjectKind)
      (prototype : Option ObjectId) (isLiteral : Bool),
      let now := Heap.Command.runAll heap earlier
      store < now.stores.size →
      let config := (now.store store).config
      let id := now.objects.size
      let later := Heap.Command.runAll (now.allocate store kind prototype isLiteral).1 commands
      ((later.object id).isLiteral = isLiteral ∧ later.config id = config) ∧
      (later.isDictionary id = true → isLiteral = true ∧ config.dictionaryObjects = true) ∧
      (later.isDictionary id = false → isLiteral = true → config.dictionaryObjects = true →
        (later.ownKeys id).length ≤ config.dictionaryThreshold) := by
  have holds := reached.plainLiterals
  have wellFormed := Heap.Command.runAll_keeps
    (fun _ wellFormed => Heap.Command.wellFormed wellFormed) holds.wellFormed
  refine ⟨fun σ α host script fuel depth client => script.run_commands host fuel _,
    fun id notPlain => ?_, fun commands command id => ?_, ?_⟩
  · by_contra isDictionary
    have isLiteral := holds.literal id (Bool.not_eq_false _ ▸ isDictionary)
    rcases notPlain with notLiteral | notOrdinary
    · rw [isLiteral] at notLiteral
      contradiction
    · exact notOrdinary (holds.plain id isLiteral)
  · have wellFormed' := wellFormed commands
    exact ⟨command.isDictionary_iff wellFormed' id, Heap.Command.sameShapes wellFormed'⟩
  · intro earlier commands store kind prototype isLiteral now hasStore
    have managed := Heap.Command.runAll_keeps (fun _ => Heap.Managed.command)
      ((wellFormed earlier).managed_allocate hasStore kind prototype isLiteral) commands
    exact ⟨⟨managed.isLiteral_eq, managed.config_eq⟩, managed.dictionary, managed.shaped⟩

/-- Makes a literal. -/
def oneLiteral : Script Unit Unit :=
  .ask (.newObject 0 none true) fun _ => .done ()

/-- The first property of a literal is an array index. A literal that is made after that stays
below the threshold for as long as it has a shape. -/
theorem Heap.IsReached.dictionary_policy_firstIndex :
    let heap := (Exec.reached (oneLiteral.grounded.run
      (Host.grounded fun _ _ _ => .done (.ok .undefined)) 1) ⟨.start {}, 0, ()⟩).heap
    let key := PropertyKey.index 7 (by decide)
    let command : Heap.Command := .defineOwn 0 key (.data .null .assigned)
    let now := (command.run heap).1
    heap.IsReached ∧ 0 < now.stores.size ∧
      heap.isDictionary 0 = false ∧ now.isDictionary 0 = true ∧ now.SameShapes heap ∧
      ∀ commands : List Heap.Command,
        let later := Heap.Command.runAll (now.allocate 0 .ordinary none true).1 commands
        later.isDictionary now.objects.size = false →
          (later.ownKeys now.objects.size).length ≤ 32 := by
  intro heap key command now
  have reached : heap.IsReached := ⟨Unit, Unit, _, oneLiteral, {}, 1, (), rfl⟩
  have hasStore : 0 < now.stores.size := by decide
  have isShaped : heap.isDictionary 0 = false := by decide
  have settings : (now.store 0).config = {} := by decide
  have lacks : heap.getOwn 0 key = none := by decide
  have present : (now.getOwn 0 key).isSome = true := by decide
  have outgrows : heap.Outgrows 0 key := ⟨by decide, by decide, .inl (by decide)⟩
  clear_value heap
  obtain ⟨-, -, steps, makings⟩ := reached.dictionary_policy
  obtain ⟨switches, noShape⟩ := steps [] command 0
  have isDictionary := switches.mpr (.inr ⟨key, _, rfl, lacks, present, outgrows⟩)
  refine ⟨reached, hasStore, isShaped, isDictionary, noShape rfl isDictionary,
    fun commands stillShaped => ?_⟩
  obtain ⟨-, -, bounded⟩ := makings [command] commands 0 .ordinary none true hasStore
  have sameSettings : (Heap.Command.runAll heap [command]).store 0 = now.store 0 := rfl
  rw [sameSettings, settings] at bounded
  exact bounded stillShaped rfl rfl

end ObjectModel
