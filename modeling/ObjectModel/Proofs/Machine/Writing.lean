import ObjectModel.Proofs.Machine.Grounding
import ObjectModel.Proofs.Machine.Ordinary

/-!
Contract: what setting a property does where no proxy has a say.

The first property on the prototype chain (`Heap.Resolves`) decides whether a setter is called.
If not, the set is refused and changes nothing (`Heap.RefusesSet`), or the receiver gets the
value and nothing else changes.

Does not own: what setters do.
-/

namespace ObjectModel

variable {σ : Type}

/-- A property after a value was written. A new property is as an assignment makes it. -/
def Descriptor.written (value : Value) : Option Descriptor → Descriptor
  | some existing => { existing with value := some value }
  | none => .data value .assigned

namespace Heap

/-! ### Which property decides -/

/-- The first property on the way along prototypes, or that there is none. -/
inductive Resolves (heap : Heap) (key : PropertyKey) : ObjectId → Option Descriptor → Prop
  | own {id : ObjectId} {current : Descriptor} (found : heap.getOwn id key = some current) :
      Resolves heap key id (some current)
  | inherited {id parent : ObjectId} {found : Option Descriptor}
      (lacks : heap.getOwn id key = none) (next : heap.prototype id = some parent)
      (rest : Resolves heap key parent found) : Resolves heap key id found
  | missing {id : ObjectId} (lacks : heap.getOwn id key = none)
      (last : heap.prototype id = none) : Resolves heap key id none

/-- There is only one first property. -/
theorem Resolves.unique {heap : Heap} {key : PropertyKey} {id : ObjectId}
    {found found' : Option Descriptor} (resolves : heap.Resolves key id found)
    (resolves' : heap.Resolves key id found') : found' = found := by
  induction resolves with
  | own found =>
      cases resolves' with
      | own found' => exact found'.symm.trans found
      | inherited lacks => simp [found] at lacks
      | missing lacks => simp [found] at lacks
  | inherited lacks next _ inductionHypothesis =>
      cases resolves' with
      | own found' => simp [lacks] at found'
      | inherited _ next' rest =>
          rw [next] at next'
          cases next'
          exact inductionHypothesis rest
      | missing _ last => simp [next] at last
  | missing lacks last =>
      cases resolves' with
      | own found' => simp [lacks] at found'
      | inherited _ next => simp [last] at next
      | missing => rfl

/-- A set that calls no setter is refused: the property that was found has none or is
read-only, or the receiver has a property that cannot be written, or can have none. -/
def RefusesSet (heap : Heap) (own : Descriptor) (receiver : ObjectId) (key : PropertyKey) :
    Prop :=
  own.isAccessor = true ∨ own.isWritable = false ∨
    match heap.getOwn receiver key with
    | some existing => existing.isAccessor = true ∨ existing.isWritable = false
    | none => heap.isExtensible receiver = false

/-- How often objects are used does not matter. -/
theorem SameContent.refusesSet_iff {after before : Heap} (same : after.SameContent before)
    (own : Descriptor) (receiver : ObjectId) (key : PropertyKey) :
    after.RefusesSet own receiver key ↔ before.RefusesSet own receiver key := by
  rw [RefusesSet, same.getOwn_eq, same.isExtensible_eq, RefusesSet]

/-- Without proxies on the way the search finds the property that decides. -/
theorem Chained.findProperty_resolves {heap : Heap} (chained : heap.Chained) {id : ObjectId}
    (ordinary : ∀ other, Relation.ReflTransGen heap.Link id other →
      heap.isExotic other = false) (key : PropertyKey) :
    (∃ holder attributes slot, heap.findProperty id key = .found holder attributes slot ∧
      heap.Resolves key id (some (.ofStored attributes slot))) ∨
      heap.findProperty id key = .missing ∧ heap.Resolves key id none := by
  obtain ⟨steps, chain⟩ := chained.ends (some id)
  generalize isStart : some id = start at chain
  induction chain generalizing id with
  | null => cases isStart
  | @exotic first isExotic =>
      cases isStart
      rw [ordinary first .refl] at isExotic
      contradiction
  | @ordinary first steps notExotic rest inductionHypothesis =>
      cases isStart
      rw [chained.findProperty_eq notExotic]
      cases found : heap.lookup first key with
      | some stored =>
          refine .inl ⟨first, stored.1, stored.2, rfl, .own ?_⟩
          rw [getOwn, found]
          rfl
      | none =>
          have lacks : heap.getOwn first key = none := by
            rw [getOwn, found]
            rfl
          cases next : heap.prototype first with
          | none => exact .inr ⟨rfl, .missing lacks next⟩
          | some parent =>
              have link : heap.Link first parent := ⟨notExotic, next⟩
              have behind : ∀ other, Relation.ReflTransGen heap.Link parent other →
                  heap.isExotic other = false := fun other links => ordinary other (links.head link)
              have parentOrdinary := behind parent .refl
              simp only [parentOrdinary, Bool.false_eq_true, if_false]
              rcases inductionHypothesis behind next.symm with
                ⟨holder, attributes, slot, search, resolves⟩ | ⟨search, resolves⟩
              · exact .inl ⟨holder, attributes, slot, search, .inherited lacks next resolves⟩
              · exact .inr ⟨search, .inherited lacks next resolves⟩

/-! ### Writing to the receiver -/

section Writing

variable {heap : Heap} (wellFormed : heap.WellFormed) {id : ObjectId}
  (inRange : id < heap.objects.size) {key : PropertyKey}

include wellFormed

theorem WellFormed.hasData_of_getOwn {existing : Descriptor}
    (found : heap.getOwn id key = some existing) (isData : existing.isAccessor = false) :
    heap.hasData id key = true := by
  obtain ⟨attributes, slot, search, rfl⟩ := wellFormed.find?_of_getOwn id found
  rw [wellFormed.hasData_eq, PropertyMap.hasData, search]
  cases slot with
  | data _ => rfl
  | accessor _ _ => contradiction

include inRange

/-- A value that is written in place is all that changes. -/
theorem WellFormed.writeData_defines {existing : Descriptor}
    (found : heap.getOwn id key = some existing) (isData : existing.isAccessor = false)
    (value : Value) :
    heap.Defines id key (.written value (heap.getOwn id key)) (heap.writeData id key value) := by
  have hasData := wellFormed.hasData_of_getOwn found isData
  have present := wellFormed.mem_keys_of_getOwn id found
  obtain ⟨attributes, slot, search, rfl⟩ := wellFormed.find?_of_getOwn id found
  rw [wellFormed.hasData_eq, PropertyMap.hasData, search] at hasData
  have updates := wellFormed.updates_writeData id key value
  rw [PropertyMap.write_eq_replace (wellFormed.nodup_keys id) search (of_decide_eq_true hasData)]
    at updates
  have defines := updates.defines_replace wellFormed inRange present
  cases slot with
  | data _ =>
      rw [found]
      exact defines
  | accessor _ _ => contradiction

/-- A value that is new goes last. -/
theorem WellFormed.createData_defines (lacks : heap.getOwn id key = none)
    (isOpen : heap.isExtensible id = true) (value : Value) :
    ∃ after, heap.defineOwn id key (.data value .assigned) = (after, .ok .accepted) ∧
      heap.Defines id key (.written value (heap.getOwn id key)) after := by
  have functions : (Descriptor.data value .assigned).NamesFunctions heap.isCallable := by
    constructor
    · rintro _ ⟨⟩
    · rintro _ ⟨⟩
  have compatible : (Descriptor.data value .assigned).isCompatible key (heap.isExtensible id)
      (heap.getOwn id key) = true := by
    rw [lacks, isOpen]
    rfl
  obtain ⟨after, accepted, defines, -⟩ :=
    wellFormed.defineOwn_defines inRange rfl functions compatible
  rw [lacks] at defines
  exact ⟨after, accepted, lacks ▸ defines⟩

end Writing

end Heap

/-! ### The rest of a set -/

namespace Machine

section Rest

variable (host : Host σ) (fuel : Nat) {world : World σ} (wellFormed : world.heap.WellFormed)
  {receiver : ObjectId} (inRange : receiver < world.heap.objects.size)
  (ordinary : world.heap.isExotic receiver = false) {own : Descriptor} (key : PropertyKey)
  (value : Value)

/-- A setter is called once, with the receiver and the value, and nothing else happens. -/
theorem setWithOwn_setter (dispatch : Dispatch σ) {setter : ObjectId}
    (hasSetter : own.setter? = some setter) :
    setWithOwn dispatch own key value (.object receiver) world =
      match dispatch (.call setter (.object receiver) [value]) world with
      | .ok _ after => .ok .accepted after
      | .error fault after => .error fault after := by
  have isAccessor : own.isAccessor = true := by
    obtain ⟨named, isSet, -⟩ := Option.bind_eq_some_iff.mp hasSetter
    rw [Descriptor.isAccessor, isSet, Option.isSome_some, Bool.or_true]
  rw [setWithOwn, if_pos isAccessor, hasSetter]
  simp only [Exec.bind_apply]
  cases dispatch (.call setter (.object receiver) [value]) world <;> rfl

include wellFormed ordinary

/-- What becomes of a value that is not given to a setter. -/
theorem setWithOwn_data (isData : own.isAccessor = false) (writable : own.isWritable = true) :
    setWithOwn (Call.run host (fuel + 1)) own key value (.object receiver) world =
      match world.heap.getOwn receiver key with
      | some existing =>
          if existing.isAccessor then .ok (.refused (.cannotRedefine key)) world
          else if !existing.isWritable then .ok (.refused (.readOnly key)) world
          else .ok .accepted { world with heap := world.heap.writeData receiver key value }
      | none => Call.run host (fuel + 1) (.createData receiver key value) world := by
  have looked := Call.run_getOwn host fuel world ordinary key
  simp only [setWithOwn, isData, writable, Bool.not_true, Bool.false_eq_true, if_false,
    Exec.bind_apply, looked]
  cases found : world.heap.getOwn receiver key with
  | none => rfl
  | some existing =>
      simp only
      split
      · rfl
      split
      · rfl
      · rename_i notAccessor _
        have hasData := wellFormed.hasData_of_getOwn found (Bool.eq_false_iff.mpr notAccessor)
        rw [Exec.heap_bind, ordinary, hasData]
        rfl

/-- A set that is refused changes nothing. -/
theorem setWithOwn_refused (noSetter : own.setter? = none)
    (refuses : world.heap.RefusesSet own receiver key) :
    ∃ reason, setWithOwn (Call.run host (fuel + 1)) own key value (.object receiver) world =
      .ok (.refused reason) world := by
  cases isAccessor : own.isAccessor with
  | true =>
      refine ⟨.noSetter key, ?_⟩
      rw [setWithOwn, if_pos isAccessor, noSetter]
      rfl
  | false =>
      cases writable : own.isWritable with
      | false =>
          refine ⟨.readOnly key, ?_⟩
          rw [setWithOwn, isAccessor, writable]
          rfl
      | true =>
          rw [setWithOwn_data host fuel wellFormed ordinary key value isAccessor writable]
          simp only [Heap.RefusesSet, isAccessor, writable, Bool.false_eq_true, Bool.true_eq_false,
            false_or] at refuses
          cases found : world.heap.getOwn receiver key with
          | some existing =>
              simp only [found] at refuses
              cases existingAccessor : existing.isAccessor with
              | true => exact ⟨.cannotRedefine key, if_pos existingAccessor⟩
              | false =>
                  have readOnly := refuses.resolve_left (Bool.eq_false_iff.mp existingAccessor)
                  exact ⟨.readOnly key, by simp [existingAccessor, readOnly]⟩
          | none =>
              simp only [found] at refuses
              have incompatible : (Descriptor.data value .assigned).isCompatible key
                  (world.heap.isExtensible receiver) (world.heap.getOwn receiver key) = false := by
                rw [found, refuses]
                rfl
              obtain ⟨reason, refused⟩ :=
                Heap.defineOwn_incompatible receiver key (.data value .assigned) incompatible
              exact ⟨reason, Call.run_defineOwn host fuel world ordinary refused⟩

include inRange

/-- A set that is not refused writes to the receiver. -/
theorem setWithOwn_accepted (admits : ¬world.heap.RefusesSet own receiver key) :
    ∃ after, setWithOwn (Call.run host (fuel + 1)) own key value (.object receiver) world =
        .ok .accepted { world with heap := after } ∧
      world.heap.Defines receiver key (.written value (world.heap.getOwn receiver key)) after := by
  simp only [Heap.RefusesSet, not_or, Bool.not_eq_true, Bool.not_eq_false] at admits
  obtain ⟨isData, writable, byReceiver⟩ := admits
  rw [setWithOwn_data host fuel wellFormed ordinary key value isData writable]
  cases found : world.heap.getOwn receiver key with
  | some existing =>
      simp only [found, not_or, Bool.not_eq_true, Bool.not_eq_false] at byReceiver
      obtain ⟨existingData, existingWritable⟩ := byReceiver
      refine ⟨world.heap.writeData receiver key value, ?_, ?_⟩
      · simp [existingData, existingWritable]
      · rw [← found]
        exact wellFormed.writeData_defines inRange found existingData value
  | none =>
      simp only [found, Bool.not_eq_false] at byReceiver
      obtain ⟨after, accepted, defines⟩ :=
        wellFormed.createData_defines inRange found byReceiver value
      rw [found] at defines
      exact ⟨after, Call.run_defineOwn host fuel world ordinary accepted, defines⟩

end Rest

/-! ### Sets -/

/-- How a set ends where `own` is the first property on the chain, with `call` for calling
setters: with one call and what comes of it, or refused and without effect, or with the value
written to the receiver and no other effect. -/
structure SetOutcome (call : Dispatch σ) (world : World σ) (own : Descriptor)
    (receiver : ObjectId) (key : PropertyKey) (value : Value)
    (outcome : EStateM.Result Fault (World σ) Verdict) : Prop where
  called : ∀ setter, own.setter? = some setter → ∃ held, held.SameContent world.heap ∧
    match call (.call setter (.object receiver) [value]) { world with heap := held } with
    | .ok _ after => ∃ heap, outcome = .ok .accepted { after with heap := heap } ∧
        heap.SameContent after.heap
    | .error fault after => ∃ heap, outcome = .error fault { after with heap := heap } ∧
        heap.SameContent after.heap
  refused : own.setter? = none → world.heap.RefusesSet own receiver key →
    ∃ reason heap, outcome = .ok (.refused reason) { world with heap := heap } ∧
      heap.SameContent world.heap
  written : own.setter? = none → ¬world.heap.RefusesSet own receiver key →
    ∃ heap, outcome = .ok .accepted { world with heap := heap } ∧
      world.heap.Defines receiver key (.written value (world.heap.getOwn receiver key)) heap

section Outcome

variable (host : Host σ) (fuel : Nat) {world : World σ} (wellFormed : world.heap.WellFormed)
  {receiver : ObjectId} (inRange : receiver < world.heap.objects.size)
  (ordinary : world.heap.isExotic receiver = false) (own : Descriptor) (key : PropertyKey)
  (value : Value)

include wellFormed inRange ordinary

theorem setWithOwn_outcome :
    SetOutcome (Call.run host (fuel + 1)) world own receiver key value
      (setWithOwn (Call.run host (fuel + 1)) own key value (.object receiver) world) where
  called := by
    intro setter hasSetter
    refine ⟨world.heap, .refl _, ?_⟩
    rw [setWithOwn_setter key value _ hasSetter]
    cases Call.run host (fuel + 1) (.call setter (.object receiver) [value]) world with
    | ok answer after => exact ⟨after.heap, rfl, .refl _⟩
    | error fault after => exact ⟨after.heap, rfl, .refl _⟩
  refused := by
    intro noSetter refuses
    obtain ⟨reason, ended⟩ :=
      setWithOwn_refused host fuel wellFormed ordinary key value noSetter refuses
    exact ⟨reason, world.heap, ended, .refl _⟩
  written := fun _ admits =>
    setWithOwn_accepted host fuel wellFormed inRange ordinary key value admits

/-- Objects in hand make no difference. -/
theorem holding_outcome (objects : List ObjectId) :
    SetOutcome (Call.run host (fuel + 1)) world own receiver key value
      (Exec.holding objects
        (setWithOwn (Call.run host (fuel + 1)) own key value (.object receiver)) world) := by
  have held := Heap.sameContent_holdAll world.heap objects
  have released := fun heap => Heap.sameContent_releaseAll heap objects
  have inner : SetOutcome (Call.run host (fuel + 1))
      { world with heap := world.heap.holdAll objects } own receiver key value
      (setWithOwn (Call.run host (fuel + 1)) own key value (.object receiver)
        { world with heap := world.heap.holdAll objects }) := by
    apply setWithOwn_outcome host fuel (wellFormed.congr held)
    · rwa [held.objects_eq]
    · exact (Heap.isExotic_congr (held.kind_eq receiver)).trans ordinary
  -- what comes of the set in hand is given back with other counts only
  rw [Exec.holding_apply]
  generalize setWithOwn (Call.run host (fuel + 1)) own key value (.object receiver)
    { world with heap := world.heap.holdAll objects } = ended at inner
  constructor
  · intro setter hasSetter
    obtain ⟨again, same, outcome⟩ := inner.called setter hasSetter
    refine ⟨again, same.trans held, ?_⟩
    simp only at outcome
    generalize Call.run host (fuel + 1) (.call setter (.object receiver) [value])
      { world with heap := again } = answer at outcome
    cases answer with
    | ok _ after =>
        obtain ⟨heap, rfl, kept⟩ := outcome
        exact ⟨_, rfl, (released heap).trans kept⟩
    | error fault after =>
        obtain ⟨heap, rfl, kept⟩ := outcome
        exact ⟨_, rfl, (released heap).trans kept⟩
  · intro noSetter refuses
    rw [← held.refusesSet_iff] at refuses
    obtain ⟨reason, heap, rfl, kept⟩ := inner.refused noSetter refuses
    exact ⟨reason, _, rfl, (released heap).trans (kept.trans held)⟩
  · intro noSetter admits
    rw [← held.refusesSet_iff] at admits
    obtain ⟨heap, rfl, defines⟩ := inner.written noSetter admits
    rw [← held.getOwn_eq]
    exact ⟨_, rfl, defines.congr held (released heap)⟩

end Outcome

end Machine

/-- Setting a property on an object with only ordinary prototypes, for any ordinary receiver.
The first property on the chain decides, or a writable one where there is none. -/
theorem Call.run_set (host : Host σ) (fuel : Nat) (world : World σ)
    (reached : world.heap.IsReached) {id : ObjectId}
    (onlyOrdinary : ∀ other, Relation.ReflTransGen world.heap.Link id other →
      world.heap.isExotic other = false)
    {receiver : ObjectId} (inRange : receiver < world.heap.objects.size)
    (ordinary : world.heap.isExotic receiver = false) (key : PropertyKey) (value : Value) :
    ∃ found, world.heap.Resolves key id found ∧
      Machine.SetOutcome (Call.run host (fuel + 1)) world
        (found.getD (.data .undefined .assigned)) receiver key value
        (Call.run host (fuel + 2) (.set id key value (.object receiver)) world) := by
  have chained := reached.chained
  have started : Call.run host (fuel + 2) (.set id key value (.object receiver)) world =
      Machine.ordinarySet (Call.run host (fuel + 1)) id key value (.object receiver) world := by
    rw [Call.run, Call.step, Machine.byKind_ordinary (onlyOrdinary id .refl)]
  rw [started, Machine.ordinarySet, Exec.heap_bind]
  rcases chained.findProperty_resolves onlyOrdinary key with
    ⟨holder, attributes, slot, search, resolves⟩ | ⟨search, resolves⟩
  · refine ⟨_, resolves, ?_⟩
    rw [search]
    exact Machine.holding_outcome host fuel chained.wellFormed inRange ordinary _ key value _
  · refine ⟨_, resolves, ?_⟩
    rw [search]
    exact Machine.setWithOwn_outcome host fuel chained.wellFormed inRange ordinary _ key value

/-- Makes an object with a property, and one that has the first for its prototype. -/
def inheritedProperty (key : PropertyKey) : Script Unit Unit :=
  .ask (.newObject 0 none false) fun _ =>
  .ask (.call (.defineOwnProperty 0 key (.data .null .assigned))) fun _ =>
  .ask (.newObject 0 (some 0) false) fun _ => .done ()

/-- A writable property that is inherited stays as it is, and the receiver gets its own. -/
theorem Call.run_set_inherited :
    let key := PropertyKey.symbol ⟨0, none⟩
    let heap := (Exec.reached ((inheritedProperty key).grounded.run
      (Host.grounded fun _ _ _ => .done (.ok .undefined)) 1) ⟨.start {}, 0, ()⟩).heap
    heap.IsReached ∧
      (∀ other, Relation.ReflTransGen heap.Link 1 other → heap.isExotic other = false) ∧
      1 < heap.objects.size ∧ heap.isExotic 1 = false ∧
      ∃ after, Call.run (fun _ _ _ => .done (.ok .undefined)) 2
          (.set 1 key (.boolean true) (.object 1)) ⟨heap, 0, ()⟩ = .ok .accepted ⟨after, 0, ()⟩ ∧
        after.getOwn 1 key = some (.data (.boolean true) .assigned) ∧
        after.object 0 = heap.object 0 := by
  intro key heap
  have reached : heap.IsReached := ⟨Unit, Unit, _, inheritedProperty key, {}, 1, (), rfl⟩
  have size : heap.objects.size = 2 := by decide
  have noneExotic : ∀ id < 2, heap.isExotic id = false := by decide
  have lacks : heap.getOwn 1 key = none := by decide
  have next : heap.prototype 1 = some 0 := by decide
  have inherited : heap.getOwn 0 key = some (.data .null .assigned) := by decide
  have isOpen : heap.isExtensible 1 = true := by decide
  clear_value heap
  have onlyOrdinary : ∀ other, Relation.ReflTransGen heap.Link 1 other →
      heap.isExotic other = false := by
    intro other _
    by_contra exotic
    rw [Bool.not_eq_false] at exotic
    have inRange := Heap.lt_of_isExotic exotic
    rw [noneExotic other (size ▸ inRange)] at exotic
    contradiction
  have inRange : 1 < heap.objects.size := by omega
  refine ⟨reached, onlyOrdinary, inRange, noneExotic 1 (by decide), ?_⟩
  obtain ⟨found, resolves, outcome⟩ := Call.run_set
    (fun _ _ _ => .done (.ok .undefined) : Host Unit) 0 ⟨heap, 0, ()⟩ reached onlyOrdinary inRange
    (noneExotic 1 (by decide)) key (.boolean true)
  obtain rfl : found = some (.data .null .assigned) :=
    Heap.Resolves.unique (.inherited lacks next (.own inherited)) resolves
  have admits : ¬heap.RefusesSet (.data .null .assigned) 1 key := by
    simp [Heap.RefusesSet, lacks, isOpen, Descriptor.isAccessor, Descriptor.isWritable,
      Descriptor.data, Attributes.assigned]
  obtain ⟨after, ended, defines⟩ := outcome.written rfl admits
  refine ⟨after, ended, ?_, defines.object_other 0 (by decide)⟩
  have getOwn_eq := defines.getOwn_eq
  simp only [lacks] at getOwn_eq
  exact getOwn_eq

end ObjectModel
