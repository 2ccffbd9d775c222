import ObjectModel.Proofs.Heap.Chain
import ObjectModel.Proofs.Machine.Requests

/-!
Contract: reading and refusing changes nothing, where no function is called.

`Call.runAlone` runs methods without any host. A call, be it of a getter, of a setter, of a
trap or of a function that revokes a proxy, ends such a run without an answer. What it does
answer, it answers with every host (`Call.run_of_runAlone`).

The world is unchanged (`World.Unchanged`) if its heap has the same content: objects, shapes
and stores, with the counts of what they made. Objects in hand were held and released, which
is not content.

Owns: the answers of methods that leave the world unchanged (`Call.isQuiet`).
-/

namespace ObjectModel

variable {σ α β : Type}

/-! ### Unchanged worlds -/

structure World.Unchanged (before after : World σ) : Prop where
  content : after.heap.SameContent before.heap
  depth_eq : after.depth = before.depth
  client_eq : after.client = before.client

namespace World.Unchanged

theorem refl (world : World σ) : world.Unchanged world := ⟨.refl _, rfl, rfl⟩

theorem trans {first second third : World σ} (earlier : first.Unchanged second)
    (later : second.Unchanged third) : first.Unchanged third where
  content := later.content.trans earlier.content
  depth_eq := later.depth_eq.trans earlier.depth_eq
  client_eq := later.client_eq.trans earlier.client_eq

end World.Unchanged

namespace Exec

/-- The computation gives no such answer. -/
def Never (answers : α → Prop) (computation : Exec σ α) : Prop :=
  ∀ before answer after, computation before = .ok answer after → ¬ answers answer

/-- With such an answer the world is unchanged. -/
def Keeps (answers : α → Prop) (computation : Exec σ α) : Prop :=
  ∀ before answer after, computation before = .ok answer after → answers answer →
    before.Unchanged after

namespace Never

variable {answers : α → Prop} {computation : Exec σ α}

theorem keeps (never : Never answers computation) : Keeps answers computation :=
  fun _ _ _ ended isAnswer => absurd isAnswer (never _ _ _ ended)

theorem error (fault : Fault) : Never answers (throw fault : Exec σ α) :=
  fun _ _ _ ended => nomatch ended

theorem pure {answer : α} (isNone : ¬ answers answer) :
    Never answers (Pure.pure answer : Exec σ α) := by
  intro _ _ _ ended
  cases ended
  exact isNone

/-- What comes first never ends. -/
theorem bind {first : Exec σ β} (next : β → Exec σ α) (never : Never (fun _ => True) first) :
    Never answers (first >>= next) := by
  intro _ _ _ ended
  obtain ⟨_, _, start, -⟩ := bind_eq_ok ended
  exact absurd trivial (never _ _ _ start)

theorem bind_right (first : Exec σ β) {next : β → Exec σ α}
    (never : ∀ answer, Never answers (next answer)) : Never answers (first >>= next) := by
  intro _ _ _ ended
  obtain ⟨_, _, -, rest⟩ := bind_eq_ok ended
  exact never _ _ _ _ rest

theorem andFinally (never : Never answers computation) (close : World σ → World σ) :
    Never answers (computation.andFinally close) := by
  intro _ _ _ ended
  obtain ⟨_, inner, -⟩ := andFinally_eq_ok ended
  exact never _ _ _ inner

end Never

namespace Keeps

variable {answers : α → Prop}

theorem pure (answer : α) : Keeps answers (Pure.pure answer : Exec σ α) := by
  intro before _ _ ended _
  cases ended
  exact .refl before

/-- If the first part changes the world, there is no such answer. -/
theorem bind {answers' : β → Prop} {first : Exec σ β} {next : β → Exec σ α}
    (start : Keeps answers' first) (rest : ∀ answer, answers' answer → Keeps answers (next answer))
    (others : ∀ answer, ¬ answers' answer → Never answers (next answer)) :
    Keeps answers (first >>= next) := by
  intro _ _ _ ended isAnswer
  obtain ⟨answer, _, started, rested⟩ := bind_eq_ok ended
  by_cases isFirst : answers' answer
  · exact (start _ _ _ started isFirst).trans (rest answer isFirst _ _ _ rested isAnswer)
  · exact absurd isAnswer (others answer isFirst _ _ _ rested)

theorem andThen {first : Exec σ β} {next : β → Exec σ α} (start : Keeps (fun _ => True) first)
    (rest : ∀ answer, Keeps answers (next answer)) : Keeps answers (first >>= next) :=
  start.bind (fun answer _ => rest answer) fun _ isNone => absurd trivial isNone

theorem withHeap {next : Heap → Exec σ α} (rest : ∀ heap, Keeps answers (next heap)) :
    Keeps answers (Exec.heap >>= next) := by
  refine andThen (fun before _ _ ended _ => ?_) rest
  cases ended
  exact .refl before

theorem holding (objects : List ObjectId) {computation : Exec σ α}
    (inner : Keeps answers computation) : Keeps answers (Exec.holding objects computation) := by
  intro before _ _ ended isAnswer
  obtain ⟨between, started, rfl⟩ := holding_eq_ok ended
  have held : before.Unchanged { before with heap := before.heap.holdAll objects } :=
    ⟨Heap.sameContent_holdAll _ _, rfl, rfl⟩
  refine (held.trans (inner _ _ _ started isAnswer)).trans ⟨?_, rfl, rfl⟩
  exact Heap.sameContent_releaseAll _ _

theorem inProxyFrame (proxy : ObjectId) {computation : Exec σ α}
    (inner : Keeps answers computation) : Keeps answers (Exec.inProxyFrame proxy computation) := by
  intro before _ _ ended isAnswer
  obtain ⟨between, started, rfl⟩ := inProxyFrame_eq_ok ended
  have unchanged := inner _ _ _ started isAnswer
  exact ⟨unchanged.content, by simp [unchanged.depth_eq], unchanged.client_eq⟩

theorem byKind (id : ObjectId) {exotic ordinary : Exec σ α} (exotics : Keeps answers exotic)
    (ordinaries : Keeps answers ordinary) :
    Keeps answers (Machine.byKind id exotic ordinary) := by
  refine withHeap fun heap => ?_
  split
  · exact exotics.inProxyFrame id
  · exact ordinaries

/-- A step of the heap that changes nothing with such an answer. -/
theorem onHeap {step : Heap → Heap × α}
    (same : ∀ heap, answers (step heap).2 → (step heap).1 = heap) :
    Keeps answers (Exec.onHeap step : Exec σ α) := by
  intro before _ _ ended isAnswer
  obtain ⟨rfl, rfl⟩ := onHeap_eq_ok ended
  rw [same _ isAnswer]
  exact .refl before

theorem onHeapOrRaise {step : Heap → Heap × Except TypeFault α}
    (same : ∀ heap answer, (step heap).2 = .ok answer → answers answer → (step heap).1 = heap) :
    Keeps answers (Exec.onHeapOrRaise step : Exec σ α) := by
  intro before _ _ ended isAnswer
  obtain ⟨answered, rfl⟩ := onHeapOrRaise_eq_ok ended
  rw [same _ _ answered isAnswer]
  exact .refl before

end Keeps

end Exec

/-! ### Methods -/

def Verdict.IsRefusal (verdict : Verdict) : Prop := verdict.isAccepted = false

theorem Verdict.not_isRefusal_accepted : ¬ accepted.IsRefusal := nofun

/-- The refusal of the target becomes one of the proxy. -/
theorem Exec.Keeps.forwarded {computation : Exec σ Verdict} (reason : TypeFault)
    (keeps : Keeps Verdict.IsRefusal computation) :
    Keeps Verdict.IsRefusal (do
      let verdict ← computation
      return .ofBool reason verdict.isAccepted) := by
  refine .bind keeps (fun verdict _ => .pure _) fun verdict notRefused => .pure ?_
  cases verdict with
  | accepted => exact Verdict.not_isRefusal_accepted
  | refused reason => exact absurd rfl notRefused

/-- Every answer of a reading method, and the refusals of the others. -/
def Call.isQuiet : (method : Call) → method.Answer → Prop
  | .setPrototypeOf _ _ => fun accepted => accepted = false
  | .preventExtensions _ => Verdict.IsRefusal
  | .defineOwnProperty _ _ _ => Verdict.IsRefusal
  | .set _ _ _ _ => Verdict.IsRefusal
  | .delete _ _ => Verdict.IsRefusal
  | _ => fun _ => True

/-- Methods that leave the world unchanged with quiet answers, and call no function. -/
structure IsQuiet (dispatch : Dispatch σ) : Prop where
  keeps : ∀ method : Call, Exec.Keeps method.isQuiet (dispatch method)
  calls : ∀ id this arguments,
    Exec.Never (fun _ => True) (dispatch (.call id this arguments))

/-- Changes no property that a definition is refused for. -/
private theorem defineOwn_refused {heap : Heap} {id : ObjectId} {key : PropertyKey}
    {change : Descriptor} {verdict : Verdict}
    (answered : (heap.defineOwn id key change).2 = .ok verdict) (refused : verdict.IsRefusal) :
    (heap.defineOwn id key change).1 = heap := by
  unfold Heap.defineOwn Heap.validateAndApply at answered ⊢
  split
  · rfl
  · rename_i admitted
    simp only [admitted] at answered ⊢
    split at answered
    · contradiction
    · cases answered
      contradiction
    · cases answered
      contradiction

private theorem deleteOwn_refused {heap : Heap} {id : ObjectId} {key : PropertyKey}
    (refused : (heap.deleteOwn id key).2.IsRefusal) : (heap.deleteOwn id key).1 = heap := by
  unfold Heap.deleteOwn at refused ⊢
  split
  · rfl
  · rename_i found
    simp only [found] at refused ⊢
    split at refused
    · contradiction
    · rw [if_neg ‹_›]

namespace IsQuiet

open Exec Machine

variable {dispatch : Dispatch σ} (quiet : IsQuiet dispatch)

include quiet

theorem readSlot_keeps (inHand : List ObjectId) (receiver : Value) (slot : Slot) :
    Keeps (fun _ => True) (readSlot dispatch inHand receiver slot) := by
  cases slot with
  | data value => exact .pure value
  | accessor getter setter =>
      cases getter with
      | none => exact .pure _
      | some getter => exact .holding _ (quiet.calls _ _ _).keeps

theorem ordinaryGet_keeps (id : ObjectId) (key : PropertyKey) (receiver : Value) :
    Keeps (fun _ => True) (ordinaryGet dispatch id key receiver) := by
  refine .withHeap fun heap => ?_
  cases heap.findProperty id key with
  | found holder attributes slot =>
      exact .andThen (quiet.readSlot_keeps _ _ _) fun _ => .pure _
  | exotic next => exact .holding _ (quiet.keeps (.get next key receiver))
  | missing => exact .pure _

theorem ordinaryHas_keeps (id : ObjectId) (key : PropertyKey) :
    Keeps (fun _ => True) (ordinaryHas dispatch id key) := by
  refine .withHeap fun heap => ?_
  cases heap.findProperty id key with
  | found holder attributes slot => exact .pure _
  | exotic next => exact .holding _ (quiet.keeps (.has next key))
  | missing => exact .pure _

theorem setWithOwn_keeps (own : Descriptor) (key : PropertyKey) (value receiver : Value) :
    Keeps Verdict.IsRefusal (setWithOwn dispatch own key value receiver) := by
  unfold setWithOwn
  split
  · split
    · exact (Never.bind _ (quiet.calls _ _ _)).keeps
    · exact .pure _
  split
  · exact .pure _
  split
  · rename_i target
    refine .andThen (quiet.keeps (.getOwnProperty target key)) fun existing => ?_
    cases existing with
    | none => exact quiet.keeps (.createData target key value)
    | some existing =>
        simp only
        split
        · exact .pure _
        split
        · exact .pure _
        refine .withHeap fun heap => ?_
        split
        · exact (Never.bind_right _ fun _ => .pure Verdict.not_isRefusal_accepted).keeps
        · exact .holding _ (quiet.keeps (.defineOwnProperty target key _))
  · exact .pure _

theorem ordinarySet_keeps (id : ObjectId) (key : PropertyKey) (value receiver : Value) :
    Keeps Verdict.IsRefusal (ordinarySet dispatch id key value receiver) := by
  refine .withHeap fun heap => ?_
  cases heap.findProperty id key with
  | found holder attributes slot => exact .holding _ (quiet.setWithOwn_keeps _ _ _ _)
  | exotic next => exact .holding _ (quiet.keeps (.set next key value receiver))
  | missing => exact quiet.setWithOwn_keeps _ _ _ _

/-- Only a proxy without the trap answers, as its target does. -/
theorem throughTrap_keeps {answers : α → Prop} (proxy : ObjectId) (trap : Trap)
    {forward : ObjectId → Exec σ α} {consult : ObjectId → (List Value → Exec σ Value) → Exec σ α}
    (forwards : ∀ target, Keeps answers (forward target))
    (consults : ∀ target ask, (∀ arguments, Never (fun _ => True) (ask arguments)) →
      Never answers (consult target ask)) :
    Keeps answers (throughTrap dispatch proxy trap forward consult) := by
  have found : Keeps (fun _ => True) (findTrap dispatch proxy trap) := by
    refine .withHeap fun heap => ?_
    split
    · exact (Never.error _).keeps
    split
    · exact (Never.error _).keeps
    refine .andThen (quiet.keeps (.getValue _ _)) fun _ => ?_
    split
    · exact .pure _
    · exact .pure _
    refine .withHeap fun heap => ?_
    split
    · exact .pure _
    · exact (Never.error _).keeps
  refine .andThen found fun ⟨link, function⟩ => ?_
  cases function with
  | none => exact forwards link.target
  | some function => exact .holding _ (consults _ _ fun _ => quiet.calls _ _ _).keeps

/-- A trap that is asked before anything else. -/
theorem askTrap_keeps {answers : α → Prop} (proxy : ObjectId) (trap : Trap)
    {forward : ObjectId → Exec σ α} {arguments : List Value}
    {rest : ObjectId → (List Value → Exec σ Value) → Value → Exec σ α}
    (forwards : ∀ target, Keeps answers (forward target)) :
    Keeps answers (throughTrap dispatch proxy trap forward fun target ask =>
      ask arguments >>= rest target ask) :=
  quiet.throughTrap_keeps proxy trap forwards fun _ _ never => .bind _ (never arguments)

/-! ### One method -/

theorem step_keeps (host : Host σ) (method : Call)
    (notCall : ∀ id this arguments, method ≠ .call id this arguments) :
    Keeps method.isQuiet (Call.step host dispatch method) := by
  cases method with
  | getPrototypeOf id =>
      exact .byKind id
        (quiet.askTrap_keeps _ _ fun target => quiet.keeps (.getPrototypeOf target))
        (.withHeap fun _ => .pure _)
  | setPrototypeOf id prototype =>
      exact .byKind id
        (quiet.askTrap_keeps _ _ fun target => quiet.keeps (.setPrototypeOf target prototype))
        (.onHeap fun heap => heap.setPrototypeOf_refused id prototype)
  | isExtensible id =>
      exact .byKind id
        (quiet.askTrap_keeps _ _ fun target => quiet.keeps (.isExtensible target))
        (.withHeap fun _ => .pure _)
  | preventExtensions id =>
      refine .byKind id (quiet.askTrap_keeps _ _ fun target =>
        .forwarded _ (quiet.keeps (.preventExtensions target))) (.onHeap fun _ refused => ?_)
      contradiction
  | getOwnProperty id key =>
      exact .byKind id
        (quiet.askTrap_keeps _ _ fun target => quiet.keeps (.getOwnProperty target key))
        (.withHeap fun _ => .pure _)
  | defineOwnProperty id key change =>
      refine .byKind id (quiet.throughTrap_keeps _ _
        (fun target => .forwarded _ (quiet.keeps (.defineOwnProperty target key change))) ?_)
        (.onHeapOrRaise fun _ _ => defineOwn_refused)
      -- the description is made before the trap is asked
      exact fun _ _ never => .bind_right _ fun _ => .andFinally (.bind _ (never _)) _
  | has id key =>
      exact .byKind id (quiet.askTrap_keeps _ _ fun target => quiet.keeps (.has target key))
        (quiet.ordinaryHas_keeps id key)
  | get id key receiver =>
      exact .byKind id (quiet.askTrap_keeps _ _ fun target =>
        .andThen (quiet.keeps (.get target key receiver)) fun _ => .pure _)
        (quiet.ordinaryGet_keeps id key receiver)
  | set id key value receiver =>
      exact .byKind id (quiet.askTrap_keeps _ _ fun target =>
        .forwarded _ (quiet.keeps (.set target key value receiver)))
        (quiet.ordinarySet_keeps id key value receiver)
  | delete id key =>
      exact .byKind id (quiet.askTrap_keeps _ _ fun target =>
        .forwarded _ (quiet.keeps (.delete target key)))
        (.onHeap fun _ => deleteOwn_refused)
  | ownKeys id strings symbols =>
      refine .andThen (.byKind id ?_ (.withHeap fun _ => .pure _)) fun _ => .pure _
      exact quiet.askTrap_keeps _ _ fun target => quiet.keeps (.allKeys target)
  | call id this arguments => exact absurd rfl (notCall id this arguments)

/-- A level is refused only where the object stays extensible. -/
theorem setIntegrity_keeps (id : ObjectId) (level : Integrity) :
    Keeps Verdict.IsRefusal (setIntegrity dispatch id level) := by
  refine .withHeap fun heap => ?_
  split
  · exact (Never.bind_right _ fun _ => .pure Verdict.not_isRefusal_accepted).keeps
  · refine .bind (quiet.keeps (.preventExtensions id)) (fun verdict refused => ?_)
      fun verdict notRefused => ?_
    · cases verdict with
      | accepted => exact absurd refused Verdict.not_isRefusal_accepted
      | refused reason => exact .pure _
    · cases verdict with
      | accepted =>
          exact .bind_right _ fun _ => .bind_right _ fun _ =>
            .pure Verdict.not_isRefusal_accepted
      | refused reason => exact absurd rfl notRefused

end IsQuiet

/-! ### Runs -/

/-- Runs an internal method, with methods nested at most `fuel` deep, as long as no function
is called. -/
def Call.runAlone : (fuel : Nat) → Dispatch σ
  | 0, _ => Exec.outOfFuel
  | _ + 1, .call _ _ _ => Exec.outOfFuel
  | fuel + 1, method =>
      Call.step (fun _ _ _ => .done (.ok .undefined)) (Call.runAlone fuel) method

theorem Call.runAlone_quiet (fuel : Nat) : IsQuiet (Call.runAlone fuel : Dispatch σ) := by
  induction fuel with
  | zero => exact ⟨fun _ => (Exec.Never.error _).keeps, fun _ _ _ => .error _⟩
  | succ fuel inductionHypothesis =>
      refine ⟨fun method => ?_, fun _ _ _ => .error _⟩
      cases method with
      | call id this arguments => exact (Exec.Never.error _).keeps
      | _ => exact inductionHypothesis.step_keeps _ _ nofun

/-- Equal worlds. -/
def World.equalSimulation (σ : Type) (early : Prop) : Simulation σ σ where
  scope := .all
  early _ := early
  related := fun left right => right = left
  alike := by
    rintro left _ rfl
    exact .refl _ _
  heap_eq := by
    rintro _ left _ rfl
    rfl
  command := by
    rintro left _ rfl command _
    exact ⟨rfl, rfl⟩
  applies := True
  validate := by
    rintro _ left _ rfl id key extensible change current
    exact ⟨rfl, rfl⟩

theorem World.equal_framesAlike (σ : Type) (early : Prop) :
    (World.equalSimulation σ early).FramesAlike where
  limit_eq := by
    rintro left _ rfl id
    rfl
  depth_eq := by
    rintro left _ rfl
    rfl
  depth := by
    rintro left _ rfl depth
    rfl

/-- What a run answers alone, it answers with every host. -/
theorem Call.runAlone_dispatches (host : Host σ) (fuel : Nat) :
    (World.equalSimulation σ True).Dispatches (Call.runAlone fuel) fun _ =>
      Call.run host fuel := by
  induction fuel with
  | zero => exact ⟨fun _ _ left _ _ => .early left trivial _, False.elim⟩
  | succ fuel inductionHypothesis =>
      refine ⟨fun method within => ?_, False.elim⟩
      cases method with
      | call id this arguments => exact fun left _ _ => .early left trivial _
      | _ =>
          exact inductionHypothesis.step_agrees_of_call (World.equal_framesAlike σ True) within
            nofun

/-- What is answered without calls is answered with them. -/
theorem World.eq_ok_of_equal {early : Prop} {first second : Exec σ α}
    (agrees : (World.equalSimulation σ early).Agrees first fun _ => second)
    {before after : World σ} {answer : α} (ended : first before = .ok answer after) :
    second before = .ok answer after := by
  have results := agrees before before rfl
  rw [ended] at results
  cases results with
  | ok _ worlds ends =>
      cases worlds
      exact ends.exists.choose_spec

end ObjectModel
