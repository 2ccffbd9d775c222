import ObjectModel.Proofs.Strict.Refusals
import ObjectModel.Proofs.Strict.Reporting

/-!
Contract: strict mode changes only how a refusal is reported.

A `Write` is an operation that can be refused. Told that its caller is strict, it does what
it does for a sloppy caller, with the same calls of functions in the same order, and ends in
the same heap; where the sloppy caller sees a refusal, the strict one gets a type error with
its reason. A refusal that no function had a part in changes nothing.

Functions are recorded beside the state of their own (`Host.recorded`), so the state at the
end of a run has the sequence of their calls.
-/

namespace ObjectModel

variable {σ α : Type}

/-! ### Recorded calls -/

/-- The code of a function that ran, with its receiver and its arguments. -/
structure FunctionCall where
  code : Nat
  this : Value
  arguments : List Value
deriving DecidableEq

/-- A script that leaves the record alone. -/
def Script.besideRecord : Script σ α → Script (σ × List FunctionCall) α
  | .done result => .done result
  | .ask request next => .ask request fun answer => (next answer).besideRecord
  | .look next => .look fun state => (next state.1).besideRecord
  | .update change next => .update (fun state => (change state.1, state.2)) next.besideRecord

/-- Every function puts down its call before it does anything else. -/
def Host.recorded (host : Host σ) : Host (σ × List FunctionCall) :=
  fun code this arguments =>
    .update (fun state => (state.1, state.2 ++ [⟨code, this, arguments⟩]))
      (host code this arguments).besideRecord

/-! ### Writes -/

/-- What can be refused. -/
inductive Write where
  | set (id : ObjectId) (key : PropertyKey) (value receiver : Value)
  | put (id : ObjectId) (key : PropertyKey) (value : Value)
  | delete (id : ObjectId) (key : PropertyKey)
  | define (id : ObjectId) (key : PropertyKey) (change : Descriptor)
  | preventExtensions (id : ObjectId)
  | setIntegrity (id : ObjectId) (level : Integrity)

namespace Write

/-- The write by methods that know of no flag. -/
def perform (dispatch : Dispatch σ) : Write → Exec σ Verdict
  | .set id key value receiver => dispatch (.set id key value receiver)
  | .put id key value => dispatch (.put id key value)
  | .delete id key => dispatch (.delete id key)
  | .define id key change => dispatch (.defineOwnProperty id key change)
  | .preventExtensions id => dispatch (.preventExtensions id)
  | .setIntegrity id level => Machine.setIntegrity dispatch id level

/-- The write for a caller that may be strict. -/
def performFor (dispatch : FlaggedDispatch σ) (strict : Bool) : Write → Exec σ Verdict
  | .set id key value receiver => dispatch strict (.set id key value receiver)
  | .put id key value => dispatch strict (.put id key value)
  | .delete id key => dispatch strict (.delete id key)
  | .define id key change => dispatch strict (.defineOwnProperty id key change)
  | .preventExtensions id => dispatch strict (.preventExtensions id)
  | .setIntegrity id level => Flagged.setIntegrity dispatch strict id level

theorem performFor_reports {dispatch : FlaggedDispatch σ} (reports : Flagged.Reports dispatch)
    (strict : Bool) (write : Write) :
    write.performFor dispatch strict = write.perform (dispatch false) >>= Exec.report strict := by
  cases write with
  | setIntegrity id level => exact Flagged.setIntegrity_reports strict reports id level
  | _ => exact reports strict _

/-- A run alone answers as a run with any host. -/
theorem perform_of_runAlone (host : Host σ) {fuel : Nat} {write : Write}
    {before after : World σ} {verdict : Verdict}
    (ended : write.perform (Call.runAlone fuel) before = .ok verdict after) :
    write.perform (Call.run host fuel) before = .ok verdict after := by
  have dispatches := Call.runAlone_dispatches host fuel
  cases write with
  | setIntegrity id level =>
      exact World.eq_ok_of_equal (dispatches.setIntegrity_agrees id trivial) ended
  | _ => exact World.eq_ok_of_equal (dispatches.method _ (Call.within_all _)) ended

theorem perform_keeps {dispatch : Dispatch σ} (quiet : IsQuiet dispatch) (write : Write) :
    Exec.Keeps Verdict.IsRefusal (write.perform dispatch) := by
  cases write with
  | set id key value receiver => exact quiet.keeps (.set id key value receiver)
  | put id key value => exact quiet.keeps (.put id key value)
  | delete id key => exact quiet.keeps (.delete id key)
  | define id key change => exact quiet.keeps (.defineOwnProperty id key change)
  | preventExtensions id => exact quiet.keeps (.preventExtensions id)
  | setIntegrity id level => exact quiet.setIntegrity_keeps id level

/-- A strict caller gets a type error where a sloppy one sees a refusal, and what the sloppy
one gets in every other case. The world after it is the same, and so are its heap and the
record of the functions that were called. A refusal without any call leaves the content of
the heap as it was. -/
theorem run_strict (host : Host σ) (fuel : Nat) (write : Write)
    (world : World (σ × List FunctionCall)) :
    let run := fun strict => write.performFor (Flagged.run .walking host.recorded fuel) strict world
    run false = write.perform (Call.run host.recorded fuel) world ∧
    (∀ reason after, run false = .ok (.refused reason) after →
      run true = .error (.error (.type reason)) after) ∧
    ((∀ reason after, run false ≠ .ok (.refused reason) after) → run true = run false) ∧
    ∀ reason after, write.perform (Call.runAlone fuel) world = .ok (.refused reason) after →
      run false = .ok (.refused reason) after ∧
        after.heap.SameContent world.heap ∧ after.depth = world.depth ∧
        after.client = world.client := by
  have reports := Flagged.run_reports .walking host.recorded fuel
  have sloppy : write.performFor (Flagged.run .walking host.recorded fuel) false =
      write.perform (Call.run host.recorded fuel) := by
    rw [write.performFor_reports reports, Flagged.run_walking, Exec.bind_report_false]
  have strict : write.performFor (Flagged.run .walking host.recorded fuel) true =
      write.perform (Call.run host.recorded fuel) >>= Exec.report true := by
    rw [write.performFor_reports reports, Flagged.run_walking]
  simp only [sloppy, strict, Exec.bind_apply]
  refine ⟨trivial, ?_, ?_, ?_⟩
  · intro reason after refused
    rw [refused]
    rfl
  · intro notRefused
    cases ended : write.perform (Call.run host.recorded fuel) world with
    | error fault after => rfl
    | ok verdict after =>
        cases verdict with
        | accepted => rfl
        | refused reason => exact absurd ended (notRefused reason after)
  · intro reason after refused
    have unchanged := write.perform_keeps (Call.runAlone_quiet fuel) _ _ _ refused rfl
    exact ⟨perform_of_runAlone host.recorded refused, unchanged.content, unchanged.depth_eq,
      unchanged.client_eq⟩

/-- An object whose only property is read-only. -/
def readOnlyHeap : Heap :=
  Heap.Command.runAll (.start {}) [
    .allocate 0 .ordinary none false,
    .defineOwn 0 (.symbol ⟨0, none⟩) (.data .null ⟨false, true, false⟩)]

/-- A write to a read-only property is a type error in strict mode, and changes nothing. -/
theorem run_strict_readOnly :
    let key := PropertyKey.symbol ⟨0, none⟩
    let world : World (Unit × List FunctionCall) := ⟨readOnlyHeap, 0, (), []⟩
    ∃ after, (Write.put 0 key .undefined).performFor
        (Flagged.run .walking (Host.recorded fun _ _ _ => .done (.ok .undefined)) 1) true world =
          .error (.error (.type (.readOnly key))) after ∧
      after.heap.SameContent readOnlyHeap ∧ after.client = ((), []) := by
  intro key world
  have refuses : ∃ after, (Write.put 0 key .undefined).perform (Call.runAlone 1) world =
      .ok (.refused (.readOnly key)) after := by
    exact ⟨_, rfl⟩
  obtain ⟨after, refused⟩ := refuses
  obtain ⟨-, strict, -, alone⟩ :=
    run_strict (fun _ _ _ => .done (.ok .undefined)) 1 (.put 0 key .undefined) world
  obtain ⟨sloppy, content, -, client_eq⟩ := alone _ _ refused
  exact ⟨after, strict _ _ sloppy, content, client_eq⟩

end Write

end ObjectModel
