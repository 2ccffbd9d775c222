import ObjectModel.Proofs.Heap.Description
import ObjectModel.Proofs.Machine.Exec
import ObjectModel.Proofs.Machine.Grounding
import ObjectModel.Proofs.Machine.Ordinary

/-!
Contract: descriptions that are turned into objects and read back.

Reading a description takes six fields and then admits them or not
(`Machine.admitDescription`), whoever supplied them. From the object of a description the reads
give its own fields back, so that describing and reading are inverse to each other on what is
admissible, and everything else is refused.

Owns: computations that end with a known result and leave no more than counts of uses behind
(`Exec.Yields`).
-/

namespace ObjectModel

variable {σ α β : Type}

/-! ### Known results -/

/-- From every world with the content of a heap the computation ends with this result. It
changes nothing, except that uses may be counted differently. -/
def Exec.Yields (heap : Heap) (computation : Exec σ α) (result : Except Error α) : Prop :=
  ∀ world : World σ, world.heap.SameContent heap → ∃ after : Heap, after.SameContent heap ∧
    computation world = Exec.ofExcept result { world with heap := after }

namespace Exec.Yields

variable {heap : Heap} {computation : Exec σ α} {next : α → Exec σ β}
  {result : Except Error α} {result' : Except Error β}

theorem pure (answer : α) : Exec.Yields heap (Pure.pure answer : Exec σ α) (.ok answer) :=
  fun world same => ⟨world.heap, same, rfl⟩

theorem typeError (fault : TypeFault) :
    Exec.Yields heap (Exec.typeError fault : Exec σ α) (.error (.type fault)) :=
  fun world same => ⟨world.heap, same, rfl⟩

theorem bind {answer : α} (first : Exec.Yields heap computation (.ok answer))
    (rest : Exec.Yields heap (next answer) result') :
    Exec.Yields heap (computation >>= next) result' := by
  intro world same
  obtain ⟨between, sameBetween, ended⟩ := first world same
  rw [Exec.bind_apply, ended]
  exact rest { world with heap := between } sameBetween

theorem bind_error {error : Error} (first : Exec.Yields heap computation (.error error))
    (next : α → Exec σ β) : Exec.Yields heap (computation >>= next) (.error error) := by
  intro world same
  obtain ⟨after, sameAfter, ended⟩ := first world same
  refine ⟨after, sameAfter, ?_⟩
  rw [Exec.bind_apply, ended]
  rfl

theorem holding (yields : Exec.Yields heap computation result) (ids : List ObjectId) :
    Exec.Yields heap (Exec.holding ids computation) result := by
  intro world same
  obtain ⟨after, sameAfter, ended⟩ := yields { world with heap := world.heap.holdAll ids }
    ((Heap.sameContent_holdAll _ ids).trans same)
  refine ⟨after.releaseAll ids, (Heap.sameContent_releaseAll after ids).trans sameAfter, ?_⟩
  rw [Exec.holding_apply, ended]
  cases result <;> rfl

end Exec.Yields

namespace Machine

/-! ### Admission -/

/-- What is done with the fields of a description once all of them are read. -/
def admitDescription (descriptor : Descriptor) : Exec σ Descriptor := do
  checkAccessor .getter descriptor.get
  checkAccessor .setter descriptor.set
  if descriptor.isMixed then Exec.typeError .mixedDescription
  else return descriptor

theorem readDescription_object (dispatch : Dispatch σ) (id : ObjectId) :
    readDescription dispatch (.object id) =
      (withField dispatch id "value" fun stored =>
        withField dispatch id "writable" fun writable =>
        withField dispatch id "get" fun getter =>
        withField dispatch id "set" fun setter =>
        withField dispatch id "enumerable" fun enumerable =>
        withField dispatch id "configurable" fun configurable =>
        admitDescription
          { value := stored
            writable := writable.map Value.toBoolean
            get := getter
            set := setter
            enumerable := enumerable.map Value.toBoolean
            configurable := configurable.map Value.toBoolean }) :=
  rfl

section Admission

variable {heap : Heap}

theorem isAccessorFunction_iff (value : Value) :
    (value.isUndefined || heap.isFunction value) = true ↔
      Descriptor.IsAccessorFunction heap.isCallable value := by
  cases value <;> simp [Value.isUndefined, Heap.isFunction, Descriptor.IsAccessorFunction]

theorem checkAccessor_some (role : AccessorRole) (value : Value) (world : World σ) :
    checkAccessor role (some value) world =
      if value.isUndefined || world.heap.isFunction value then .ok () world
      else .error (.error (.type (.accessorNotFunction role value))) world := by
  rw [checkAccessor, Exec.heap_bind]
  split <;> rfl

variable {field : Option Value}

theorem checkAccessor_yields (accepted : ∀ value, field = some value →
      Descriptor.IsAccessorFunction heap.isCallable value) (role : AccessorRole) :
    Exec.Yields heap (checkAccessor role field : Exec σ Unit) (.ok ()) := by
  cases field with
  | none => exact .pure ()
  | some value =>
      intro world same
      have accepts := accepted value rfl
      rw [← same.isCallable_eq, ← isAccessorFunction_iff] at accepts
      exact ⟨world.heap, same, by rw [checkAccessor_some, if_pos accepts]; rfl⟩

theorem checkAccessor_refuses (refused : ¬∀ value, field = some value →
      Descriptor.IsAccessorFunction heap.isCallable value) (role : AccessorRole) :
    ∃ fault, Exec.Yields heap (checkAccessor role field : Exec σ Unit)
      (.error (.type fault)) := by
  cases field with
  | none =>
      refine absurd ?_ refused
      rintro _ ⟨⟩
  | some value =>
      refine ⟨.accessorNotFunction role value, fun world same => ⟨world.heap, same, ?_⟩⟩
      have refuses : ¬(value.isUndefined || world.heap.isFunction value) = true := by
        rw [isAccessorFunction_iff, same.isCallable_eq]
        intro accepts
        refine refused ?_
        rintro _ ⟨⟩
        exact accepts
      rw [checkAccessor_some, if_neg refuses]
      rfl

variable {descriptor : Descriptor}

theorem admitDescription_yields (admissible : descriptor.IsAdmissible heap.isCallable) :
    Exec.Yields heap (admitDescription descriptor : Exec σ Descriptor) (.ok descriptor) := by
  refine .bind (checkAccessor_yields admissible.functions.getter .getter) ?_
  refine .bind (checkAccessor_yields admissible.functions.setter .setter) ?_
  rw [if_neg (by rw [admissible.notMixed]; exact Bool.false_ne_true)]
  exact .pure descriptor

/-- A getter that is no function is complained of first, then a setter, then mixed fields. -/
theorem admitDescription_refuses (inadmissible : ¬descriptor.IsAdmissible heap.isCallable) :
    ∃ fault, Exec.Yields heap (admitDescription descriptor : Exec σ Descriptor)
      (.error (.type fault)) := by
  by_cases getters : ∀ value, descriptor.get = some value →
      Descriptor.IsAccessorFunction heap.isCallable value
  · have getterTaken := checkAccessor_yields (σ := σ) getters .getter
    by_cases setters : ∀ value, descriptor.set = some value →
        Descriptor.IsAccessorFunction heap.isCallable value
    · have mixed : descriptor.isMixed = true := by
        by_contra notMixed
        exact inadmissible ⟨Bool.not_eq_true _ ▸ notMixed, getters, setters⟩
      refine ⟨.mixedDescription, .bind getterTaken (.bind (checkAccessor_yields setters _) ?_)⟩
      rw [if_pos mixed]
      exact .typeError _
    · obtain ⟨fault, refused⟩ := checkAccessor_refuses (σ := σ) setters .setter
      exact ⟨fault, .bind getterTaken (refused.bind_error _)⟩
  · obtain ⟨fault, refused⟩ := checkAccessor_refuses (σ := σ) getters .getter
    exact ⟨fault, refused.bind_error _⟩

/-- What is admitted is taken as it is. -/
theorem admitDescription_eq_ok {before after : World σ} {result : Descriptor}
    (ended : admitDescription descriptor before = .ok result after) :
    result = descriptor ∧ after.heap.SameContent before.heap ∧
      descriptor.IsAdmissible before.heap.isCallable := by
  by_cases admissible : descriptor.IsAdmissible before.heap.isCallable
  · obtain ⟨last, same, admitted⟩ := admitDescription_yields admissible before (.refl _)
    rw [admitted] at ended
    cases ended
    exact ⟨rfl, same, admissible⟩
  · obtain ⟨fault, refused⟩ := admitDescription_refuses admissible
    obtain ⟨last, -, isRefused⟩ := refused before (.refl _)
    rw [isRefused] at ended
    cases ended

end Admission

/-! ### Reading -/

/-- Every description that the computation ends with is admissible in the heap as it is then. -/
def GivesAdmissible (computation : Exec σ Descriptor) : Prop :=
  ∀ ⦃before after : World σ⦄ ⦃descriptor : Descriptor⦄,
    computation before = .ok descriptor after → descriptor.IsAdmissible after.heap.isCallable

/-- Letting go of a field leaves functions what they are. -/
private theorem GivesAdmissible.withField {dispatch : Dispatch σ} {id : ObjectId} {name : String}
    {rest : Option Value → Exec σ Descriptor} (gives : ∀ field, GivesAdmissible (rest field)) :
    GivesAdmissible (withField dispatch id name rest) := by
  intro before after descriptor ended
  obtain ⟨field, between, -, held⟩ := Exec.bind_eq_ok ended
  obtain ⟨last, inner, rfl⟩ := Exec.holding_eq_ok held
  rw [(Heap.sameContent_releaseAll last.heap _).isCallable_eq]
  exact gives field inner

private theorem givesAdmissible_admitDescription (descriptor : Descriptor) :
    GivesAdmissible (admitDescription descriptor : Exec σ Descriptor) := by
  intro before after result ended
  obtain ⟨rfl, same, admissible⟩ := admitDescription_eq_ok ended
  rwa [same.isCallable_eq]

/-- Wherever the fields come from, only admissible descriptions are read. -/
theorem readDescription_admissible (dispatch : Dispatch σ) (value : Value) :
    GivesAdmissible (readDescription dispatch value) := by
  cases value with
  | object id =>
      rw [readDescription_object]
      refine .withField fun stored => ?_
      refine .withField fun writable => ?_
      refine .withField fun getter => ?_
      refine .withField fun setter => ?_
      refine .withField fun enumerable => ?_
      refine .withField fun configurable => ?_
      exact givesAdmissible_admitDescription _
  | _ =>
      intro before after descriptor ended
      cases ended

/-! ### Reading back -/

section Record

variable {heap described : Heap} {store : StoreId} {descriptor : Descriptor}
  (adds : heap.AddsRecord store descriptor described) (chained : described.Chained)
  (host : Host σ) (fuel : Nat)

include adds chained

/-- A field that is read from the object of a description is the field of the description. -/
theorem readField_record (name : String) {world : World σ}
    (same : world.heap.SameContent described) :
    readField (Call.run host (fuel + 1)) heap.objects.size name world =
      .ok (descriptor.field? (.ofString name)) world := by
  have adds := adds.congr same
  have search := adds.findProperty_eq (chained.congr same) (.ofString name)
  have ordinary : world.heap.isExotic heap.objects.size = false := by
    rw [Heap.isExotic, Heap.proxy?, adds.ordinary]
    rfl
  have noProxy : ∀ next, world.heap.findProperty heap.objects.size (.ofString name) ≠
      .exotic next := by
    intro next
    rw [search]
    cases descriptor.field? (.ofString name) <;> rintro ⟨⟩
  rw [readField, Exec.bind_apply, Call.run_has host fuel world ordinary _ noProxy]
  cases field : descriptor.field? (.ofString name) with
  | none =>
      rw [field] at search
      rw [search]
      rfl
  | some value =>
      rw [field] at search
      have read := Call.run_get_data host fuel world ordinary search (.object heap.objects.size)
      simp only [search, ne_eq, reduceCtorEq, not_false_eq_true, decide_true, if_true,
        Exec.bind_apply, read]
      rfl

/-- So the rest runs with this field. -/
private theorem withField_record {name : String} {rest : Option Value → Exec σ α}
    {result : Except Error α}
    (yields : Exec.Yields described (rest (descriptor.field? (.ofString name))) result) :
    Exec.Yields described (withField (Call.run host (fuel + 1)) heap.objects.size name rest)
      result := by
  intro world same
  rw [withField, Exec.bind_apply, readField_record adds chained host fuel name same]
  exact yields.holding _ world same

/-- The description that is read is admitted or not. -/
theorem readDescription_record {result : Except Error Descriptor}
    (admits : Exec.Yields described (admitDescription descriptor : Exec σ Descriptor) result) :
    Exec.Yields described
      (readDescription (Call.run host (fuel + 1)) (.object heap.objects.size)) result := by
  rw [readDescription_object]
  refine withField_record adds chained host fuel ?_
  refine withField_record adds chained host fuel ?_
  refine withField_record adds chained host fuel ?_
  refine withField_record adds chained host fuel ?_
  refine withField_record adds chained host fuel ?_
  refine withField_record adds chained host fuel ?_
  rw [← descriptor.ofFields_field?] at admits
  exact admits

end Record

/-! ### Writing -/

/-- Fields written to an object as data properties, one after the other, as long as they are
accepted. -/
def writeFields (dispatch : Dispatch σ) (id : ObjectId) :
    List (String × Value) → Exec σ Verdict
  | [] => return .accepted
  | (name, value) :: rest => do
      match ← dispatch (.createData id (.ofString name) value) with
      | .accepted => writeFields dispatch id rest
      | .refused reason => return .refused reason

/-- On an extensible object that lacks the fields all of them are accepted, and added one after
the other. -/
theorem writeFields_lacking (host : Host σ) (fuel : Nat) {id : ObjectId}
    (fields : List (String × Value)) {world : World σ}
    (lacks : world.heap.LacksFields id fields) (ordinary : world.heap.isExotic id = false)
    (isExtensible : world.heap.isExtensible id = true) :
    writeFields (Call.run host (fuel + 1)) id fields world =
      .ok .accepted { world with
        heap := fields.foldl (fun heap (name, value) =>
          heap.addProperty id (.ofString name) .assigned (.data value)) world.heap } := by
  induction fields generalizing world with
  | nil => rfl
  | cons head rest inductionHypothesis =>
      obtain ⟨name, value⟩ := head
      obtain ⟨updates, stillLacks⟩ := lacks.step
      have defined := lacks.wellFormed.defineOwn_createData isExtensible
        (lacks.absent _ List.mem_cons_self) value
      have stillOrdinary := (Heap.isExotic_congr (updates.kind_eq id)).trans ordinary
      have stillExtensible := isExtensible
      rw [Heap.isExtensible_eq, ← PropertyMap.extensible_add _ _ .assigned (.data value),
        ← updates.view_eq lacks.inRange, ← Heap.isExtensible_eq] at stillExtensible
      rw [writeFields, Exec.bind_apply, Call.run_defineOwn host fuel world ordinary defined]
      exact inductionHypothesis stillLacks stillOrdinary stillExtensible

/-- To describe is to write the fields to a new object. -/
theorem writeFields_describe {heap : Heap} (wellFormed : heap.WellFormed) (store : StoreId)
    (descriptor : Descriptor) (host : Host σ) (fuel depth : Nat) (client : σ) :
    writeFields (Call.run host (fuel + 1)) heap.objects.size descriptor.fields
        ⟨(heap.allocate store .ordinary none false).1, depth, client⟩ =
      .ok .accepted ⟨(heap.describe store descriptor).1, depth, client⟩ := by
  have kind_eq : (heap.allocate store .ordinary none false).1.kind heap.objects.size =
      .ordinary := by
    rw [Heap.kind, Heap.object_allocate, if_pos rfl]
    rfl
  have view_eq := wellFormed.view_allocate store .ordinary none false heap.objects.size
  rw [if_pos rfl] at view_eq
  apply writeFields_lacking host fuel descriptor.fields
    (wellFormed.lacksFields_allocate store descriptor)
  · show Heap.isExotic _ _ = false
    rw [Heap.isExotic, Heap.proxy?, kind_eq]
    rfl
  · show Heap.isExtensible _ _ = true
    rw [Heap.isExtensible_eq, view_eq]
    rfl

/-! ### Round trips -/

/-- Describing and reading back, in a heap with finite walks along prototypes. -/
theorem readDescription_described {heap : Heap} (chained : heap.Chained) (store : StoreId)
    (descriptor : Descriptor) (host : Host σ) (fuel : Nat) :
    let described := (heap.describe store descriptor).1
    let read := readDescription (Call.run host (fuel + 1)) (.object heap.objects.size)
    (descriptor.IsAdmissible heap.isCallable → Exec.Yields described read (.ok descriptor)) ∧
      (¬descriptor.IsAdmissible heap.isCallable →
        ∃ fault, Exec.Yields described read (.error (.type fault))) := by
  obtain ⟨-, adds⟩ := chained.wellFormed.describe_addsRecord store descriptor
  have describedChained := chained.describe store descriptor
  rw [← adds.isCallable_eq]
  constructor
  · intro admissible
    exact readDescription_record adds describedChained host fuel
      (admitDescription_yields admissible)
  · intro inadmissible
    obtain ⟨fault, refused⟩ := admitDescription_refuses inadmissible
    exact ⟨fault, readDescription_record adds describedChained host fuel refused⟩

/-- Grounded programs supply fields in heaps that stay chained. -/
theorem chained_readDescription (host : Host σ) (fuel : Nat) {value : Value}
    {descriptor : Descriptor} {before after : World σ} (chained : before.heap.Chained)
    (ended : readDescription (Call.run host.grounded fuel) value before = .ok descriptor after) :
    after.heap.Chained := by
  have results := (Call.run_grounded host fuel 0).readDescription_agrees value before before
    ⟨rfl, chained, Nat.zero_le _⟩
  rw [ended] at results
  cases results with
  | ok _ worlds _ => exact worlds.held

/-- Describing makes one new object with the fields of the description, in a heap that any program
reaches, exactly as definitions made one after the other do. Reading it back ends with the
description itself if that is admissible, and with a type error otherwise. Whatever else is read,
from inherited fields, by getters or through proxies, is admissible where it has been read, and
comes back again when it is described there. A description that is not mixed is completed to all
fields of its kind and none of the other, once and for all, and keeps the fields that it has. -/
theorem readDescription_describe (host : Host σ) :
    (∀ (heap : Heap) (store : StoreId) (descriptor : Descriptor) (fuel : Nat), heap.IsReached →
      let described := (heap.describe store descriptor).1
      let id := heap.objects.size
      let read := readDescription (Call.run host (fuel + 1)) (.object id)
      (heap.describe store descriptor).2 = id ∧ heap.AddsRecord store descriptor described ∧
        (∀ depth client, writeFields (Call.run host (fuel + 1)) id descriptor.fields
            ⟨(heap.allocate store .ordinary none false).1, depth, client⟩ =
          .ok .accepted ⟨described, depth, client⟩) ∧
        (descriptor.IsAdmissible heap.isCallable →
          Exec.Yields described read (.ok descriptor)) ∧
        (¬descriptor.IsAdmissible heap.isCallable →
          ∃ fault, Exec.Yields described read (.error (.type fault)))) ∧
    (∀ (fuel : Nat) (value : Value) (descriptor : Descriptor) (before after : World σ),
      before.heap.IsReached →
      readDescription (Call.run host.grounded fuel) value before = .ok descriptor after →
      descriptor.IsAdmissible after.heap.isCallable ∧
        ∀ (store : StoreId) (fuel : Nat),
          Exec.Yields (after.heap.describe store descriptor).1
            (readDescription (Call.run host.grounded (fuel + 1))
              (.object after.heap.objects.size))
            (.ok descriptor)) ∧
    ∀ descriptor : Descriptor, descriptor.isMixed = false →
      descriptor.complete.Carries descriptor ∧
        descriptor.complete.complete = descriptor.complete ∧
        descriptor.complete =
          if descriptor.isAccessor then
            { get := some (descriptor.get.getD .undefined)
              set := some (descriptor.set.getD .undefined)
              enumerable := some (descriptor.enumerable.getD false)
              configurable := some (descriptor.configurable.getD false) }
          else
            { value := some (descriptor.value.getD .undefined)
              writable := some (descriptor.writable.getD false)
              enumerable := some (descriptor.enumerable.getD false)
              configurable := some (descriptor.configurable.getD false) } := by
  refine ⟨?_, ?_, ?_⟩
  · intro heap store descriptor fuel reached
    have wellFormed := reached.chained.wellFormed
    obtain ⟨isNew, adds⟩ := wellFormed.describe_addsRecord store descriptor
    have written := fun depth client =>
      writeFields_describe wellFormed store descriptor host fuel depth client
    exact ⟨isNew, adds, written,
      readDescription_described reached.chained store descriptor host fuel⟩
  · intro fuel value descriptor before after reached ended
    have admissible := readDescription_admissible _ value ended
    have chained := chained_readDescription host fuel reached.chained ended
    exact ⟨admissible, fun store fuel =>
      (readDescription_described chained store descriptor host.grounded fuel).1 admissible⟩
  · intro descriptor notMixed
    refine ⟨Descriptor.carries_complete descriptor,
      (Descriptor.isFull_complete notMixed).complete_eq, ?_⟩
    cases isAccessor : descriptor.isAccessor with
    | true =>
        have noData : descriptor.isData = false := by
          simpa only [Descriptor.isMixed, isAccessor, Bool.and_true] using notMixed
        exact Descriptor.complete_accessor noData isAccessor
    | false => exact Descriptor.complete_data isAccessor

/-- Makes a function. -/
def oneFunction : Script Unit Unit :=
  .ask (.newFunction 0 none "get" 0) fun _ => .done ()

/-- Makes a function, and describes a property with it for its getter. -/
def describedGetter : Script Unit Unit :=
  .ask (.newFunction 0 none "get" 0) fun _ =>
  .ask (.describe 0 { get := some (.object 0), enumerable := some true }) fun _ => .done ()

/-- The description of a getter is read back, described once more and read again. With a getter
that is `null` it is refused. -/
theorem readDescription_describe_getter :
    let host : Host Unit := fun _ _ _ => .done (.ok .undefined)
    let descriptor : Descriptor := { get := some (.object 0), enumerable := some true }
    let heap := (Exec.reached (oneFunction.grounded.run host.grounded 1) ⟨.start {}, 0, ()⟩).heap
    let described := (heap.describe 0 descriptor).1
    let read := fun id => readDescription (Call.run host.grounded 1) (.object id)
    heap.IsReached ∧ described.IsReached ∧ heap.isCallable 0 = true ∧
      (∃ after, read 1 ⟨described, 0, ()⟩ = .ok descriptor ⟨after, 0, ()⟩ ∧
        Exec.Yields (after.describe 0 descriptor).1 (read after.objects.size)
          (.ok descriptor)) ∧
      (∃ fault, Exec.Yields (heap.describe 0 { get := some .null }).1 (read 1)
        (.error (.type fault))) ∧
      descriptor.complete =
        { get := some (.object 0), set := some .undefined
          enumerable := some true, configurable := some false } := by
  intro host descriptor heap described read
  have reached : heap.IsReached := ⟨Unit, Unit, host, oneFunction, {}, 1, (), rfl⟩
  have describedReached : described.IsReached :=
    ⟨Unit, Unit, host, describedGetter, {}, 1, (), by decide +kernel⟩
  have isCallable : heap.isCallable 0 = true := by decide +kernel
  have size_eq : heap.objects.size = 1 := by decide +kernel
  clear_value heap
  have admissible : descriptor.IsAdmissible heap.isCallable := by
    refine ⟨rfl, ?_, ?_⟩
    · rintro _ ⟨⟩
      exact .inr ⟨0, rfl, isCallable⟩
    · rintro _ ⟨⟩
  have inadmissible : ¬({ get := some .null } : Descriptor).IsAdmissible heap.isCallable := by
    intro admissible
    rcases admissible.functions.getter .null rfl with isUndefined | ⟨_, isObject, -⟩
    · cases isUndefined
    · cases isObject
  obtain ⟨describing, -, completing⟩ := readDescription_describe host.grounded
  obtain ⟨-, -, -, admitted, -⟩ := describing heap 0 descriptor 0 reached
  obtain ⟨-, -, -, -, refused⟩ := describing heap 0 { get := some .null } 0 reached
  rw [size_eq] at admitted refused
  obtain ⟨after, -, ended⟩ := admitted admissible ⟨described, 0, ()⟩ (.refl _)
  obtain ⟨-, again⟩ := (readDescription_describe host).2.1 1 _ descriptor ⟨described, 0, ()⟩
    ⟨after, 0, ()⟩ describedReached ended
  exact ⟨reached, describedReached, isCallable, ⟨after, ended, again 0 0⟩,
    refused inadmissible, (completing descriptor rfl).2.2⟩

end Machine

end ObjectModel
