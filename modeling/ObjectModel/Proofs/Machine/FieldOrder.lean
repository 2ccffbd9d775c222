import Mathlib.Logic.Function.Basic
import ObjectModel.Proofs.Machine.Description

/-!
Contract: in which order the fields of a description are read and checked.

Reading a description is a list of steps. Each reads one field or checks one accessor
function, and mixed fields are complained of at the end. `readDescription` takes the steps of
`DescriptionStep.onePass`: all fields in the order in which descriptions are written, then the
functions. The language asks for `DescriptionStep.standard`: the flags that every description
may have come first, and a function is checked as soon as it was read.

The two lists make the same reads and checks. So they end alike wherever no read fails and no
read changes what another one gives (`stepsResult_standard`), and otherwise the first step that
fails decides, in either order.

Owns: the trace of the reads (`Machine.Traced`), which holds whatever user code they run.
-/

namespace ObjectModel

/-! ### Steps -/

/-- The fields of a description. -/
inductive FieldName where
  | value
  | writable
  | get
  | set
  | enumerable
  | configurable
deriving DecidableEq

def FieldName.text : FieldName → String
  | .value => "value"
  | .writable => "writable"
  | .get => "get"
  | .set => "set"
  | .enumerable => "enumerable"
  | .configurable => "configurable"

def FieldName.key (name : FieldName) : PropertyKey :=
  .ofString name.text

/-- The field with the function of a role. -/
def AccessorRole.field : AccessorRole → FieldName
  | .getter => .get
  | .setter => .set

/-- The fields as far as they were read. -/
abbrev Draft := FieldName → Option Value

def Draft.descriptor (draft : Draft) : Descriptor where
  value := draft .value
  writable := (draft .writable).map Value.toBoolean
  get := draft .get
  set := draft .set
  enumerable := (draft .enumerable).map Value.toBoolean
  configurable := (draft .configurable).map Value.toBoolean

inductive DescriptionStep where
  | read (name : FieldName)
  /-- The function of a role must be `undefined` or callable. -/
  | check (role : AccessorRole)
deriving DecidableEq

namespace DescriptionStep

/-- All fields in the order in which descriptions are written, and then the functions. -/
def onePass : List DescriptionStep :=
  [.read .value, .read .writable, .read .get, .read .set, .read .enumerable,
    .read .configurable, .check .getter, .check .setter]

/-- The order of the language. -/
def standard : List DescriptionStep :=
  [.read .enumerable, .read .configurable, .read .value, .read .writable, .read .get,
    .check .getter, .read .set, .check .setter]

end DescriptionStep

variable {σ : Type}

namespace Machine

/-- Takes the steps of a list, and admits what was read if it is not mixed. -/
def readSteps (dispatch : Dispatch σ) (id : ObjectId) :
    List DescriptionStep → Draft → Exec σ Descriptor
  | [], draft =>
      if draft.descriptor.isMixed then Exec.typeError .mixedDescription
      else return draft.descriptor
  | .read name :: rest, draft =>
      withField dispatch id name.text fun field =>
        readSteps dispatch id rest (Function.update draft name field)
  | .check role :: rest, draft => do
      checkAccessor role (draft role.field)
      readSteps dispatch id rest draft

/-- ToPropertyDescriptor as the language has it. -/
def standardDescription (dispatch : Dispatch σ) (value : Value) : Exec σ Descriptor :=
  match value with
  | .object id => readSteps dispatch id DescriptionStep.standard fun _ => none
  | _ => Exec.typeError .descriptionNotObject

theorem readDescription_eq_readSteps (dispatch : Dispatch σ) (id : ObjectId) :
    readDescription dispatch (.object id) =
      readSteps dispatch id DescriptionStep.onePass fun _ => none :=
  rfl

/-! ### Traces -/

/-- An internal method that was asked for, and how it ended. -/
structure Performed where
  call : Call
  result : Except Fault call.Answer

/-- A world in which a log is kept beside the state of user code. -/
def noting (log : List Performed) (world : World σ) : World (σ × List Performed) :=
  ⟨world.heap, world.depth, (world.client, log)⟩

/-- The same end of a computation, with a log. -/
def notingEnd {α : Type} (log : List Performed) :
    EStateM.Result Fault (World σ) α → EStateM.Result Fault (World (σ × List Performed)) α
  | .ok answer after => .ok answer (noting log after)
  | .error fault after => .error fault (noting log after)

/-- A dispatch that notes what it is asked for, and hides the log from user code. -/
def recorded (dispatch : Dispatch σ) : Dispatch (σ × List Performed) := fun call world =>
  let result := dispatch call ⟨world.heap, world.depth, world.client.1⟩
  let entry : Performed :=
    match result with
    | .ok answer _ => ⟨call, .ok answer⟩
    | .error fault _ => ⟨call, .error fault⟩
  notingEnd (world.client.2 ++ [entry]) result

/-- What is performed on an object when the steps of a list are taken one after the other, and
the fields that are read if none of them fails. A field is read only if the object has it, and
whatever fails ends it all. -/
inductive Traced (id : ObjectId) :
    List DescriptionStep → Draft → List Performed → Option Draft → Prop
  | finished (draft : Draft) : Traced id [] draft [] (some draft)
  | refused (role : AccessorRole) (rest : List DescriptionStep) (draft : Draft) :
      Traced id (.check role :: rest) draft [] none
  | admitted (role : AccessorRole) {rest : List DescriptionStep} {draft : Draft}
      {performed : List Performed} {outcome : Option Draft}
      (later : Traced id rest draft performed outcome) :
      Traced id (.check role :: rest) draft performed outcome
  | hasFails (name : FieldName) (rest : List DescriptionStep) (draft : Draft) (fault : Fault) :
      Traced id (.read name :: rest) draft [⟨.has id name.key, .error fault⟩] none
  | getFails (name : FieldName) (rest : List DescriptionStep) (draft : Draft) (fault : Fault) :
      Traced id (.read name :: rest) draft
        [⟨.has id name.key, .ok true⟩, ⟨.getValue id name.key, .error fault⟩] none
  | lacks (name : FieldName) {rest : List DescriptionStep} {draft : Draft}
      {performed : List Performed} {outcome : Option Draft}
      (later : Traced id rest (Function.update draft name none) performed outcome) :
      Traced id (.read name :: rest) draft
        (⟨.has id name.key, .ok false⟩ :: performed) outcome
  | has (name : FieldName) (answer : Option Value) {rest : List DescriptionStep} {draft : Draft}
      {performed : List Performed} {outcome : Option Draft}
      (later : Traced id rest
        (Function.update draft name (some (answer.getD .undefined))) performed outcome) :
      Traced id (.read name :: rest) draft
        (⟨.has id name.key, .ok true⟩ :: ⟨.getValue id name.key, .ok answer⟩ :: performed)
        outcome

/-- The run of a computation that reads a description: it performs what the steps say, and a
description that it ends with has the fields that were read. -/
def FollowsSteps (id : ObjectId) (steps : List DescriptionStep) (draft : Draft)
    (computation : Exec σ Descriptor) (noted : Exec (σ × List Performed) Descriptor) : Prop :=
  ∀ world log, ∃ performed outcome, Traced id steps draft performed outcome ∧
    noted (noting log world) = notingEnd (log ++ performed) (computation world) ∧
    ∀ descriptor after, computation world = .ok descriptor after →
      ∃ last, outcome = some last ∧ descriptor = last.descriptor

section Traces

variable (dispatch : Dispatch σ) (id : ObjectId)

theorem readField_apply (name : FieldName) (world : World σ) :
    readField dispatch id name.text world =
      match dispatch (.has id name.key) world with
      | .error fault after => .error fault after
      | .ok false after => .ok none after
      | .ok true after =>
          match dispatch (.getValue id name.key) after with
          | .error fault after => .error fault after
          | .ok answer after => .ok (some (answer.getD .undefined)) after := by
  rw [readField, Exec.bind_apply, ← FieldName.key]
  cases dispatch (.has id name.key) world with
  | error fault after => rfl
  | ok present after =>
      cases present with
      | false => rfl
      | true =>
          simp only [if_true, Exec.bind_apply]
          cases dispatch (.getValue id name.key) after <;> rfl

theorem recorded_noting (call : Call) (world : World σ) (log : List Performed) :
    recorded dispatch call (noting log world) =
      match dispatch call world with
      | .ok answer after => .ok answer (noting (log ++ [⟨call, .ok answer⟩]) after)
      | .error fault after => .error fault (noting (log ++ [⟨call, .error fault⟩]) after) := by
  unfold recorded noting notingEnd
  cases dispatch call world <;> rfl

variable {dispatch id} {rest : List DescriptionStep} {draft : Draft}

/-- Objects in hand are not noted. -/
theorem FollowsSteps.holding {computation : Exec σ Descriptor}
    {noted : Exec (σ × List Performed) Descriptor}
    (follows : FollowsSteps id rest draft computation noted) (ids : List ObjectId) :
    FollowsSteps id rest draft (Exec.holding ids computation) (Exec.holding ids noted) := by
  intro world log
  obtain ⟨performed, outcome, traced, noted_eq, gives⟩ :=
    follows { world with heap := world.heap.holdAll ids } log
  have held : noted { noting log world with heap := (noting log world).heap.holdAll ids } = _ :=
    noted_eq
  refine ⟨performed, outcome, traced, ?_, ?_⟩
  · rw [Exec.holding_apply, Exec.holding_apply, held]
    cases computation { world with heap := world.heap.holdAll ids } <;> rfl
  · intro descriptor after ended
    obtain ⟨between, inner, -⟩ := Exec.holding_eq_ok ended
    exact gives descriptor between inner

/-- One more field is read first. -/
theorem FollowsSteps.read (name : FieldName) {next : Option Value → Exec σ Descriptor}
    {noted : Option Value → Exec (σ × List Performed) Descriptor}
    (follows : ∀ field,
      FollowsSteps id rest (Function.update draft name field) (next field) (noted field)) :
    FollowsSteps id (.read name :: rest) draft (withField dispatch id name.text next)
      (withField (recorded dispatch) id name.text noted) := by
  intro world log
  rw [withField, withField, Exec.bind_apply, Exec.bind_apply, readField_apply, readField_apply,
    recorded_noting]
  cases dispatch (.has id name.key) world with
  | error fault after =>
      refine ⟨_, none, .hasFails name rest draft fault, rfl, ?_⟩
      rintro _ _ ⟨⟩
  | ok present after =>
      cases present with
      | false =>
          obtain ⟨performed, outcome, traced, noted_eq, gives⟩ :=
            (follows none).holding [] after (log ++ [⟨.has id name.key, .ok false⟩])
          rw [List.append_assoc, List.singleton_append] at noted_eq
          exact ⟨_, outcome, .lacks name traced, noted_eq, gives⟩
      | true =>
          simp only [recorded_noting, List.append_assoc, List.singleton_append]
          cases dispatch (.getValue id name.key) after with
          | error fault last =>
              refine ⟨_, none, .getFails name rest draft fault, rfl, ?_⟩
              rintro _ _ ⟨⟩
          | ok answer last =>
              obtain ⟨performed, outcome, traced, noted_eq, gives⟩ :=
                (follows (some (answer.getD .undefined))).holding
                  ([answer.getD .undefined].flatMap Value.references) last
                  (log ++ [⟨.has id name.key, .ok true⟩, ⟨.getValue id name.key, .ok answer⟩])
              rw [List.append_assoc] at noted_eq
              exact ⟨_, outcome, .has name answer traced, noted_eq, gives⟩

/-- One function is checked first. -/
theorem FollowsSteps.check (role : AccessorRole) (field : Option Value)
    {next : Exec σ Descriptor} {noted : Exec (σ × List Performed) Descriptor}
    (follows : FollowsSteps id rest draft next noted) :
    FollowsSteps id (.check role :: rest) draft (checkAccessor role field >>= fun _ => next)
      (checkAccessor role field >>= fun _ => noted) := by
  intro world log
  obtain ⟨performed, outcome, traced, noted_eq, gives⟩ := follows world log
  cases field with
  | none => exact ⟨performed, outcome, .admitted role traced, noted_eq, gives⟩
  | some value =>
      rw [Exec.bind_apply, Exec.bind_apply, checkAccessor_some, checkAccessor_some]
      have sameHeap : (noting log world).heap = world.heap := rfl
      rw [sameHeap]
      by_cases accepts : (value.isUndefined || world.heap.isFunction value) = true
      · rw [if_pos accepts, if_pos accepts]
        exact ⟨performed, outcome, .admitted role traced, noted_eq, gives⟩
      · rw [if_neg accepts, if_neg accepts]
        refine ⟨[], none, .refused role rest draft, ?_, ?_⟩
        · rw [List.append_nil]
          rfl
        · rintro _ _ ⟨⟩

variable (dispatch id)

/-- Every run takes the steps of its list. -/
theorem readSteps_follows (steps : List DescriptionStep) (draft : Draft) :
    FollowsSteps id steps draft (readSteps dispatch id steps draft)
      (readSteps (recorded dispatch) id steps draft) := by
  induction steps generalizing draft with
  | nil =>
      intro world log
      refine ⟨[], some draft, .finished draft, ?_, ?_⟩
      · rw [readSteps, readSteps, List.append_nil]
        split <;> rfl
      · intro descriptor after ended
        rw [readSteps] at ended
        split at ended
        · cases ended
        · cases ended
          exact ⟨draft, rfl, rfl⟩
  | cons step rest inductionHypothesis =>
      cases step with
      | read name => exact .read name fun field => inductionHypothesis _
      | check role => exact .check role (draft role.field) (inductionHypothesis draft)

end Traces

/-! ### Steady reads -/

/-- Whether the function of a role will do. -/
def checkedField (heap : Heap) (role : AccessorRole) : Option Value → Except Error Unit
  | none => .ok ()
  | some value =>
      if value.isUndefined || heap.isFunction value then .ok ()
      else .error (.type (.accessorNotFunction role value))

/-- The end of the steps of a list, when each field has one result whenever it is read. -/
def stepsResult (heap : Heap) (reads : FieldName → Except Error (Option Value)) :
    List DescriptionStep → Draft → Except Error Descriptor
  | [], draft =>
      if draft.descriptor.isMixed then .error (.type .mixedDescription)
      else .ok draft.descriptor
  | .read name :: rest, draft => do
      let field ← reads name
      stepsResult heap reads rest (Function.update draft name field)
  | .check role :: rest, draft => do
      checkedField heap role (draft role.field)
      stepsResult heap reads rest draft

section Steady

variable {heap : Heap} {dispatch : Dispatch σ} {id : ObjectId}

theorem checkAccessor_yields_checkedField (role : AccessorRole) (field : Option Value) :
    Exec.Yields heap (checkAccessor role field : Exec σ Unit) (checkedField heap role field) := by
  cases field with
  | none => exact .pure ()
  | some value =>
      intro world same
      refine ⟨world.heap, same, ?_⟩
      have isFunction_eq : world.heap.isFunction value = heap.isFunction value := by
        cases value with
        | object id => exact congrFun same.isCallable_eq id
        | _ => rfl
      rw [checkAccessor_some, checkedField, isFunction_eq]
      split <;> rfl

/-- Each field has one result whenever it is read, and reading it leaves the heap as it is. -/
def ReadsSteadily (heap : Heap) (dispatch : Dispatch σ) (id : ObjectId)
    (reads : FieldName → Except Error (Option Value)) : Prop :=
  ∀ name, Exec.Yields heap (readField dispatch id name.text) (reads name)

theorem ReadsSteadily.readSteps_yields {reads : FieldName → Except Error (Option Value)}
    (steady : ReadsSteadily heap dispatch id reads) (steps : List DescriptionStep)
    (draft : Draft) :
    Exec.Yields heap (readSteps dispatch id steps draft) (stepsResult heap reads steps draft) := by
  induction steps generalizing draft with
  | nil =>
      rw [readSteps, stepsResult]
      split
      · exact .typeError _
      · exact .pure _
  | cons step rest inductionHypothesis =>
      cases step with
      | read name =>
          have first := steady name
          rw [stepsResult]
          cases result : reads name with
          | error error =>
              rw [result] at first
              exact first.bind_error _
          | ok field =>
              rw [result] at first
              exact first.bind ((inductionHypothesis _).holding _)
      | check role =>
          have first : Exec.Yields heap (checkAccessor role (draft role.field) : Exec σ Unit)
              (checkedField heap role (draft role.field)) :=
            checkAccessor_yields_checkedField role (draft role.field)
          rw [stepsResult]
          cases result : checkedField heap role (draft role.field) with
          | error error =>
              rw [result] at first
              exact first.bind_error _
          | ok =>
              rw [result] at first
              exact first.bind (inductionHypothesis draft)

/-! ### The two orders -/

section Orders

variable {reads : FieldName → Except Error (Option Value)}

/-- If every field can be read, the order does not matter. -/
theorem stepsResult_standard (allRead : ∀ name, ∃ field, reads name = .ok field) :
    stepsResult heap reads DescriptionStep.standard (fun _ => none) =
      stepsResult heap reads DescriptionStep.onePass fun _ => none := by
  choose fields reads_eq using allRead
  obtain rfl : reads = fun name => .ok (fields name) := funext reads_eq
  -- both drafts are complete when they are admitted, and so is the getter when it is checked
  rfl

variable {name : FieldName} {error : Error} (fails : reads name = .error error)
  (others : ∀ other, other ≠ name → ∃ field, reads other = .ok field)

include fails others

private theorem reads_eq_of_fails : ∃ fields : FieldName → Option Value,
    reads = fun other => if other = name then .error error else .ok (fields other) := by
  choose! fields reads_eq using others
  refine ⟨fields, ?_⟩
  funext other
  split
  · rename_i same
    rw [same, fails]
  · rename_i different
    exact reads_eq other different

/-- Reading all fields in one pass ends with the one read that fails. -/
theorem stepsResult_onePass_of_fails :
    stepsResult heap reads DescriptionStep.onePass (fun _ => none) = .error error := by
  obtain ⟨fields, rfl⟩ := reads_eq_of_fails fails others
  cases name <;> rfl

/-- In the order of the language a getter that is refused comes before a setter that cannot be
read. -/
theorem stepsResult_standard_of_fails :
    (name ≠ .set →
      stepsResult heap reads DescriptionStep.standard (fun _ => none) = .error error) ∧
    (name = .set → ∀ getter, reads .get = .ok getter →
      stepsResult heap reads DescriptionStep.standard (fun _ => none) =
        checkedField heap .getter getter >>= fun _ => .error error) := by
  obtain ⟨fields, rfl⟩ := reads_eq_of_fails fails others
  constructor
  · intro notSetter
    cases name with
    | set => exact absurd rfl notSetter
    | _ => rfl
  · rintro rfl getter found
    cases found
    rfl

end Orders

end Steady

end Machine

/-! ### Fields without user code -/

namespace Heap

/-- The search for a key ends at a data property with this value, or nowhere. -/
def FindsField (heap : Heap) (id : ObjectId) (key : PropertyKey) : Option Value → Prop
  | some value =>
      ∃ holder attributes, heap.findProperty id key = .found holder attributes (.data value)
  | none => heap.findProperty id key = .missing

theorem SameContent.resembles {after before : Heap} (same : after.SameContent before) :
    before.Resembles (fun _ => False) after where
  size_eq := congrArg Array.size same.objects_eq
  store_eq := fun id => by rw [same.object_eq]
  kind_eq := same.kind_eq
  prototype_eq := same.prototype_eq
  lookup_eq := same.lookup_eq
  hasData_eq := fun id key => by
    simp only [hasData, layout, same.object_eq, ShapeGraph.layout_congr same.shapes_eq]
  isExtensible_eq := same.isExtensible_eq
  ownKeys_eq := fun id => by
    have layout_eq : after.layout = before.layout :=
      funext (ShapeGraph.layout_congr same.shapes_eq)
    have ordered_eq : after.keysOrdered id = before.keysOrdered id := by
      simp only [keysOrdered, layout?, shape?, layout_eq, same.object_eq]
    have config_eq : after.config id = before.config id := by
      simp only [config, same.object_eq, same.store_eq]
    rw [ownKeys, ownKeys, ordered_eq, config_eq, same.keys_eq]
  testIntegrity_eq := fun _ _ impossible => impossible.elim

end Heap

namespace Machine

section Plain

variable (host : Host σ) (fuel : Nat) {heap : Heap} {id : ObjectId}
  (ordinary : heap.isExotic id = false)

include ordinary

/-- A field that a getter supplies is read by a call of the getter. -/
theorem readField_getter {name : FieldName} {holder getter : ObjectId}
    {setter : Option ObjectId} {attributes : Attributes}
    (found : heap.findProperty id name.key =
      .found holder attributes (.accessor (some getter) setter))
    {result : Except Error Value}
    (called : Exec.Yields heap (Call.run host fuel (.call getter (.object id) [])) result) :
    Exec.Yields heap (readField (Call.run host (fuel + 1)) id name.text)
      (result.map some) := by
  intro world same
  have stillOrdinary := (same.resembles.isExotic_eq id).trans ordinary
  have stillFound := (same.resembles.findProperty_eq id name.key).trans found
  let objects := world.heap.inHand holder (.accessor (some getter) setter)
  obtain ⟨after, sameAfter, ended⟩ := called.holding objects world same
  refine ⟨after, sameAfter, ?_⟩
  have asked := Call.run_has host fuel world stillOrdinary name.key fun next => by
    rw [stillFound]
    rintro ⟨⟩
  have looked := Call.run_get_accessor host fuel world stillOrdinary stillFound (.object id)
  rw [Exec.bind_apply, ended] at looked
  rw [readField_apply, asked, stillFound]
  simp only [ne_eq, reduceCtorEq, not_false_eq_true, decide_true, looked]
  cases result <;> rfl

/-- A field that is found without user code is read without user code. -/
theorem readField_plain {name : FieldName} {field : Option Value}
    (finds : heap.FindsField id name.key field) :
    Exec.Yields heap (readField (Call.run host (fuel + 1)) id name.text) (.ok field) := by
  intro world same
  refine ⟨world.heap, same, ?_⟩
  have stillOrdinary := (same.resembles.isExotic_eq id).trans ordinary
  have search := same.resembles.findProperty_eq id name.key
  cases field with
  | none =>
      rw [show heap.findProperty id name.key = .missing from finds] at search
      have asked := Call.run_has host fuel world stillOrdinary name.key fun next => by
        rw [search]
        rintro ⟨⟩
      rw [readField_apply, asked, search]
      rfl
  | some value =>
      obtain ⟨holder, attributes, found⟩ := finds
      rw [found] at search
      have asked := Call.run_has host fuel world stillOrdinary name.key fun next => by
        rw [search]
        rintro ⟨⟩
      have looked := Call.run_get_data host fuel world stillOrdinary search (.object id)
      rw [readField_apply, asked, search]
      simp only [ne_eq, reduceCtorEq, not_false_eq_true, decide_true, looked]
      rfl

end Plain

/-- What each of the two orders ends with. Whatever reading the fields does, it is done in the
order of the steps, each field read only if it is there. Where every read has one result, the
steps alone decide about the end: it is the same in both orders if every field can be read. A
single field that cannot be read is the error of both, but for one case: the language refuses a
getter that is no function before it looks at a setter that cannot be read. So the orders
cannot be told apart on objects that have their fields without user code. -/
theorem readDescription_order (host : Host σ) :
    (∀ (dispatch : Dispatch σ) (id : ObjectId),
      FollowsSteps id DescriptionStep.onePass (fun _ => none)
          (readDescription dispatch (.object id))
          (readDescription (recorded dispatch) (.object id)) ∧
        FollowsSteps id DescriptionStep.standard (fun _ => none)
          (standardDescription dispatch (.object id))
          (standardDescription (recorded dispatch) (.object id))) ∧
    (∀ (dispatch : Dispatch σ) (id : ObjectId) (heap : Heap)
      (reads : FieldName → Except Error (Option Value)), ReadsSteadily heap dispatch id reads →
      let ends := fun steps => stepsResult heap reads steps fun _ => none
      Exec.Yields heap (readDescription dispatch (.object id)) (ends DescriptionStep.onePass) ∧
        Exec.Yields heap (standardDescription dispatch (.object id))
          (ends DescriptionStep.standard) ∧
        ((∀ name, ∃ field, reads name = .ok field) →
          ends DescriptionStep.standard = ends DescriptionStep.onePass) ∧
        ∀ name error, reads name = .error error →
          (∀ other, other ≠ name → ∃ field, reads other = .ok field) →
          ends DescriptionStep.onePass = .error error ∧
            (name ≠ .set → ends DescriptionStep.standard = .error error) ∧
            (name = .set → ∀ getter, reads .get = .ok getter →
              ends DescriptionStep.standard =
                checkedField heap .getter getter >>= fun _ => .error error)) ∧
    (∀ (fuel : Nat) (heap : Heap) (id : ObjectId), heap.isExotic id = false →
      (∀ name : FieldName, ∃ field, heap.FindsField id name.key field) → ∃ result,
        Exec.Yields heap (readDescription (Call.run host (fuel + 1)) (.object id)) result ∧
        Exec.Yields heap (standardDescription (Call.run host (fuel + 1)) (.object id)) result) ∧
    ∀ (dispatch : Dispatch σ) (value : Value), (∀ id, value ≠ .object id) →
      readDescription dispatch value = Exec.typeError .descriptionNotObject ∧
        standardDescription dispatch value = Exec.typeError .descriptionNotObject := by
  refine ⟨?_, ?_, ?_, ?_⟩
  · intro dispatch id
    rw [readDescription_eq_readSteps, readDescription_eq_readSteps]
    exact ⟨readSteps_follows dispatch id DescriptionStep.onePass _,
      readSteps_follows dispatch id DescriptionStep.standard _⟩
  · intro dispatch id heap reads steady ends
    rw [readDescription_eq_readSteps]
    refine ⟨steady.readSteps_yields DescriptionStep.onePass _,
      steady.readSteps_yields DescriptionStep.standard _, stepsResult_standard, ?_⟩
    intro name error fails others
    exact ⟨stepsResult_onePass_of_fails fails others, stepsResult_standard_of_fails fails others⟩
  · intro fuel heap id ordinary plain
    choose fields finds using plain
    have steady : ReadsSteadily heap (Call.run host (fuel + 1)) id fun name => .ok (fields name) :=
      fun name => readField_plain host fuel ordinary (finds name)
    refine ⟨_, steady.readSteps_yields DescriptionStep.onePass fun _ => none, ?_⟩
    rw [← stepsResult_standard fun name => ⟨fields name, rfl⟩]
    exact steady.readSteps_yields DescriptionStep.standard _
  · intro dispatch value notObject
    cases value with
    | object id => exact absurd rfl (notObject id)
    | _ => exact ⟨rfl, rfl⟩

/-- Makes a function, and an object whose description has a getter that is `null` and a setter
for which that function is asked. -/
def troubledDescription : Script Unit Unit :=
  .ask (.newFunction 0 none "set" 0) fun _ =>
  .ask (.newObject 0 none false) fun _ =>
  .ask (.call (.createData 1 FieldName.get.key .null)) fun _ =>
  .ask (.call (.defineOwnProperty 1 FieldName.set.key { get := some (.object 0) })) fun _ =>
  .done ()

/-- The function throws, and one pass over the fields ends with what it throws. The language
would not have come so far. -/
theorem readDescription_order_differs :
    let host : Host Unit := fun _ _ _ => .done (.error (.thrown .null))
    let heap := (Exec.reached (troubledDescription.run host 1) ⟨.start {}, 0, ()⟩).heap
    Exec.Yields heap (readDescription (Call.run host 2) (.object 1)) (.error (.thrown .null)) ∧
      Exec.Yields heap (standardDescription (Call.run host 2) (.object 1))
        (.error (.type (.accessorNotFunction .getter .null))) := by
  intro host heap
  let reads : FieldName → Except Error (Option Value)
    | .get => .ok (some .null)
    | .set => .error (.thrown .null)
    | _ => .ok none
  have ordinary : heap.isExotic 1 = false := by decide +kernel
  have found : heap.findProperty 1 FieldName.set.key =
      .found 1 ⟨false, false, false⟩ (.accessor (some 0) none) := by decide +kernel
  have kind_eq : heap.kind 0 = .function "set" (.code 0) := by decide +kernel
  have missing : ∀ name : FieldName, name ≠ .get → name ≠ .set →
      heap.findProperty 1 name.key = .missing := by
    intro name
    cases name <;> decide +kernel
  have null : heap.findProperty 1 FieldName.get.key = .found 1 .assigned (.data .null) := by
    decide +kernel
  have throws : Exec.Yields heap (Call.run host 1 (.call 0 (.object 1) []))
      (.error (.thrown .null)) := by
    intro world same
    refine ⟨world.heap, same, ?_⟩
    rw [Call.run, Call.step, callObject, Exec.heap_bind, same.kind_eq, kind_eq]
    rfl
  clear_value heap
  have steady : ReadsSteadily heap (Call.run host 2) 1 reads := by
    intro name
    cases name with
    | get => exact readField_plain host 1 ordinary ⟨1, .assigned, null⟩
    | set => exact readField_getter host 1 ordinary found throws
    | value | writable | enumerable | configurable =>
        exact readField_plain host 1 ordinary (missing _ (by decide) (by decide))
  have others : ∀ other, other ≠ FieldName.set → ∃ field, reads other = .ok field := by
    intro other notSetter
    cases other with
    | set => exact absurd rfl notSetter
    | _ => exact ⟨_, rfl⟩
  obtain ⟨onePass, standard, -, fails⟩ :=
    (readDescription_order host).2.1 (Call.run host 2) 1 heap reads steady
  obtain ⟨onePass_eq, -, standard_eq⟩ := fails .set (.thrown .null) rfl others
  rw [onePass_eq] at onePass
  rw [standard_eq rfl (some .null) rfl] at standard
  exact ⟨onePass, standard⟩

end Machine

end ObjectModel
