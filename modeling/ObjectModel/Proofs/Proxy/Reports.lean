import ObjectModel.Proofs.Machine.Journal
import ObjectModel.Proofs.Proxy.Run

/-!
Contract: a proxy never takes back what it has reported as fixed.

The journal of a run has every internal method that started or ended, at any depth. Once a
method has answered that a property is fixed, or that a proxy is not extensible, the answers
of all methods that start later in the run keep to it, or there is no answer
(`Script.run_reports_stand`). What was reported is true of the last target (`Call.Honest`),
where it stays true (`Heap.Follows`), and so every later answer owes it again.

Mixed definitions have to be left out, as in `Script.run_preserves`.
-/

namespace ObjectModel

namespace Journal

/-- A method has given an answer, from one place of the journal to another. -/
structure Reports (journal : Journal) (method : Call) (answer : method.Answer)
    (first last : Nat) (before after : Heap) : Prop where
  started : journal[first]? = some (Event.started method before)
  ended : journal[last]? = some (Event.ended first method (.ok answer) after)

/-- A method that started after a moment of the journal has answered. -/
def Answers (journal : Journal) (since : Nat) (method : Call) (answer : method.Answer) :
    Prop :=
  ∃ (first last : Nat) (after : Heap), since < first ∧
    journal[last]? = some (Event.ended first method (.ok answer) after)

/-- Every later answer keeps to the description of a property. -/
structure StaysFixed (journal : Journal) (since : Nat) (id : ObjectId) (key : PropertyKey)
    (description : Descriptor) : Prop where
  getOwnProperty : ∀ answer, journal.Answers since (.getOwnProperty id key) answer →
    ∃ later, answer = some later ∧ description.Persists later
  has : ∀ answer, journal.Answers since (.has id key) answer → answer = true
  delete : ∀ answer, journal.Answers since (.delete id key) answer → answer ≠ .accepted
  ownKeys : ∀ strings symbols answer,
    journal.Answers since (.ownKeys id strings symbols) answer →
      key.isWanted strings symbols = true → key ∈ answer
  get : description.isData = true → description.isWritable = false →
    ∀ receiver answer, journal.Answers since (.get id key receiver) answer →
      ∃ value, answer = some value ∧ value.same (description.value.getD .undefined) = true
  set : description.isData = true → description.isWritable = false →
    ∀ value receiver, journal.Answers since (.set id key value receiver) .accepted →
      value.same (description.value.getD .undefined) = true

/-- Every later answer says that there are no other prototype and no other keys than the
last target had. -/
structure StaysClosed (journal : Journal) (since : Nat) (id : ObjectId) (closed : Heap)
    (last : ObjectId) : Prop where
  isExtensible : ∀ answer, journal.Answers since (.isExtensible id) answer → answer = false
  getPrototypeOf : ∀ answer, journal.Answers since (.getPrototypeOf id) answer →
    answer = closed.prototype last
  setPrototypeOf : ∀ prototype, journal.Answers since (.setPrototypeOf id prototype) true →
    prototype = closed.prototype last
  getOwnProperty : ∀ key description,
    journal.Answers since (.getOwnProperty id key) (some description) →
      closed.getOwn last key ≠ none
  defineOwnProperty : ∀ key change,
    journal.Answers since (.defineOwnProperty id key change) .accepted →
      closed.getOwn last key ≠ none
  ownKeys : ∀ strings symbols keys, journal.Answers since (.ownKeys id strings symbols) keys →
    ∀ key ∈ keys, closed.getOwn last key ≠ none

namespace IsHistory

variable {σ : Type} {host : Host σ} (hostProper : host.IsProper) {start now : Heap}
  {journal : Journal} (history : journal.IsHistory host start now)

include hostProper history

/-- The answers of a history are honest. -/
theorem honest {first last : Nat} {method : Call} {answer : method.Answer} {after : Heap}
    (isEnded : journal[last]? = some (Event.ended first method (.ok answer) after)) :
    ∃ before, journal[first]? = some (Event.started method before) ∧
      Call.Honest before after method answer := by
  obtain ⟨_, -, isStarted, proper, fuel, world, world', rfl, rfl, ended⟩ := history.ends isEnded
  refine ⟨world.heap, isStarted, ?_⟩
  exact (Call.run_isHonest hostProper fuel).honest method proper
    (history.wellFormed_at isStarted) ended

/-- So are those after any moment, from which the heap went on by allowed steps. -/
theorem answers_honest {since : Nat} {event : Event} (found : journal[since]? = some event)
    {method : Call} {answer : method.Answer} (answers : journal.Answers since method answer) :
    ∃ before after, event.heap.Follows before ∧ Call.Honest before after method answer := by
  obtain ⟨first, last, after, order, isEnded⟩ := answers
  obtain ⟨before, isStarted, honest⟩ := history.honest hostProper isEnded
  exact ⟨before, after, history.follows_of_lt order found isStarted, honest⟩

variable {since : Nat} {event : Event} (found : journal[since]? = some event) {id : ObjectId}

include found

theorem staysFixed {key : PropertyKey} {description : Descriptor}
    (pinned : event.heap.Pins id key description) :
    journal.StaysFixed since id key description := by
  have owed : ∀ {method : Call} {answer : method.Answer},
      journal.Answers since method answer → ∃ before after : Heap,
        before.Pins id key description ∧ Call.Honest before after method answer := by
    intro method answer answers
    obtain ⟨before, after, follows, honest⟩ := history.answers_honest hostProper found answers
    exact ⟨before, after, follows.pins (history.wellFormed_at found) pinned, honest⟩
  refine ⟨?_, ?_, ?_, ?_, ?_, ?_⟩
  · intro answer answers
    obtain ⟨before, after, pinned, describes⟩ := owed answers
    exact describes.pinned description pinned
  · intro answer answers
    obtain ⟨before, after, pinned, honest⟩ := owed answers
    exact honest description pinned
  · intro answer answers
    obtain ⟨before, after, pinned, honest⟩ := owed answers
    exact honest description pinned
  · intro strings symbols answer answers
    obtain ⟨before, after, pinned, honest, -⟩ := owed answers
    exact honest key description pinned
  · intro isData readOnly receiver answer answers
    obtain ⟨before, after, pinned, honest⟩ := owed answers
    exact honest description pinned isData readOnly
  · intro isData readOnly value receiver answers
    obtain ⟨before, after, pinned, honest⟩ := owed answers
    exact honest description pinned isData readOnly rfl

theorem staysClosed {last : ObjectId} (closed : event.heap.Closes id last) :
    journal.StaysClosed since id event.heap last := by
  have owed : ∀ {method : Call} {answer : method.Answer},
      journal.Answers since method answer → ∃ before after : Heap,
        before.Closes id last ∧ event.heap.Preserves last before ∧
          Call.Honest before after method answer := by
    intro method answer answers
    obtain ⟨before, after, follows, honest⟩ := history.answers_honest hostProper found answers
    have wellFormed := history.wellFormed_at found
    exact ⟨before, after, follows.closes wellFormed closed,
      follows.preserves wellFormed closed.ends.last_lt, honest⟩
  refine ⟨?_, ?_, ?_, ?_, ?_, ?_⟩
  · intro answer answers
    obtain ⟨before, after, stillClosed, -, honest, -⟩ := owed answers
    exact honest last stillClosed
  · intro answer answers
    obtain ⟨before, after, stillClosed, preserves, honest⟩ := owed answers
    rw [honest last stillClosed, preserves.prototype_eq closed.closed]
  · intro prototype answers
    obtain ⟨before, after, stillClosed, preserves, honest⟩ := owed answers
    rw [honest last stillClosed rfl, preserves.prototype_eq closed.closed]
  · intro key description answers absent
    obtain ⟨before, after, stillClosed, preserves, describes⟩ := owed answers
    cases describes.closed last stillClosed (preserves.keys closed.closed key absent)
  · intro key change answers absent
    obtain ⟨before, after, stillClosed, preserves, honest⟩ := owed answers
    exact honest last stillClosed rfl (preserves.keys closed.closed key absent)
  · intro strings symbols keys answers key member absent
    obtain ⟨before, after, stillClosed, preserves, -, honest⟩ := owed answers
    exact honest last stillClosed key member (preserves.keys closed.closed key absent)

end IsHistory

end Journal

/-- What a proxy has reported as fixed, and that it is not extensible, stands for the rest of
the run: whatever the script and the functions, getters, setters and traps ask for, as long as
no definition is mixed, and however many proxies stand before the last target. The journal is
that of the run itself. -/
theorem Script.run_reports_stand {σ α : Type} {host : Host σ} (hostProper : host.IsProper)
    {script : Script σ α} (scriptProper : script.IsProper) (fuel : Nat) (world : World σ)
    (reachable : world.heap.Reachable) :
    Exec.withoutJournal (script.runNoted host fuel world.withJournal) =
        script.run host fuel world ∧
      ∀ (proxy last : ObjectId) (first since : Nat) (before after : Heap),
        before.EndsAt proxy last →
          (∀ key description, description.isConfigurable = false →
            (script.journal host fuel world).Reports (.getOwnProperty proxy key)
                (some description) first since before after →
              (script.journal host fuel world).StaysFixed since proxy key description) ∧
          ((script.journal host fuel world).Reports (.isExtensible proxy) false
                first since before after ∨
              (script.journal host fuel world).Reports (.preventExtensions proxy) .accepted
                first since before after →
            (script.journal host fuel world).StaysClosed since proxy after last) := by
  have wellFormed := reachable.wellFormed
  refine ⟨Script.runNoted_eq hostProper scriptProper fuel wellFormed, ?_⟩
  have history := Script.journal_isHistory hostProper scriptProper fuel wellFormed
  intro proxy last first since before after ends
  -- What is said of the heap at the start of the report is said of the one noted there.
  have honest : ∀ {method : Call} {answer : method.Answer},
      (script.journal host fuel world).Reports method answer first since before after →
        Call.Honest before after method answer := by
    intro method answer reported
    obtain ⟨before', isStarted, honest⟩ := history.honest hostProper reported.ended
    rw [reported.started] at isStarted
    cases isStarted
    exact honest
  refine ⟨?_, ?_⟩
  · intro key description notConfigurable reported
    have describes := honest reported
    exact history.staysFixed hostProper reported.ended
      (describes.fixes description rfl notConfigurable last ends)
  · rintro (reported | reported)
    · exact history.staysClosed hostProper reported.ended ((honest reported).2 last ends rfl)
    · exact history.staysClosed hostProper reported.ended (honest reported last ends rfl)

/-- A trap describes a constant of the target, and another one claims to have deleted it. What the
first one has reported stands, and the claim is an error. -/
theorem Script.run_reports_stand_constant :
    let key := PropertyKey.symbol ⟨0, none⟩
    let constant := Descriptor.data .null ⟨false, true, false⟩
    let heap := Heap.Command.runAll (.start {}) [
      .allocate 0 .ordinary none false, .defineOwn 0 key constant,
      .allocate 0 .ordinary none false,
      .allocate 0 (.function "describe" (.code 0)) none false,
      .allocate 0 (.function "claim" (.code 1)) none false,
      .defineOwn 1 (.ofString Trap.getOwnProperty.name) (.data (.object 2) .assigned),
      .defineOwn 1 (.ofString Trap.delete.name) (.data (.object 3) .assigned),
      .allocate 0 (.proxy ⟨0, 1, false⟩) none false]
    let script : Script Unit (Except Error Verdict) := .ask (.call (.getOwnProperty 4 key)) fun _ =>
      .ask (.call (.delete 4 key)) .done
    let host : Host Unit := fun code _ _ =>
      match code with
      | 0 => .ask (.describe 0 constant) fun description => .done (description.map .object)
      | _ => .done (.ok (.boolean true))
    let journal := script.journal host 4 ⟨heap, 0, ()⟩
    journal.StaysFixed 29 4 key constant ∧
      journal.Answers 29 (.call 3 (.object 1) [.object 0, key.toValue]) (.boolean true) ∧
      ∃ after, script.run host 4 ⟨heap, 0, ()⟩ =
        .ok (.error (.type (.trapViolation .deletedFixedProperty))) after := by
  intro key constant heap script host journal
  have hostProper : host.IsProper := by
    intro code this arguments
    match code with
    | 0 => exact .ask (.describe 0 constant) trivial fun _ => .done _
    | _ + 1 => exact .done _
  have scriptProper : script.IsProper :=
    .ask (.call (.getOwnProperty 4 key)) trivial fun _ =>
      .ask (.call (.delete 4 key)) trivial fun _ => .done _
  have reachable : heap.Reachable := ⟨{}, _, rfl⟩
  have isProxy : heap.kind 4 = .proxy ⟨0, 1, false⟩ := by decide +kernel
  have ends : heap.EndsAt 4 0 := .proxy isProxy (.ordinary (by decide +kernel) (by decide +kernel))
  have reports : (journal[29]?.bind (Event.answer? (.getOwnProperty 4 key) 0)) =
      some (some constant) := by decide +kernel
  have claims : (journal[34]?.bind
      (Event.answer? (.call 3 (.object 1) [.object 0, key.toValue]) 33)) =
        some (.boolean true) := by decide +kernel
  have fails : (match script.run host 4 ⟨heap, 0, ()⟩ with
      | .ok outcome _ => some outcome
      | .error _ _ => none) = some (.error (.type (.trapViolation .deletedFixedProperty))) := by
    decide +kernel
  have journal_eq : journal = script.journal host 4 ⟨heap, 0, ()⟩ := rfl
  clear_value journal heap script host
  subst journal_eq
  have wellFormed : (World.mk heap 0 ()).heap.WellFormed := reachable.wellFormed
  have history := Script.journal_isHistory hostProper scriptProper 4 wellFormed
  have stand := (Script.run_reports_stand hostProper scriptProper 4 ⟨heap, 0, ()⟩ reachable).2
  obtain ⟨event, found, answer⟩ := Option.bind_eq_some_iff.mp reports
  obtain ⟨after, rfl⟩ := Event.eq_ended_of_answer? answer
  obtain ⟨before, -, isStarted, -⟩ := history.ends found
  have evolves := List.rel_of_pairwise_cons history.ordered
    (List.mem_map_of_mem (List.mem_of_getElem? isStarted))
  have endsThen := (wellFormed.follows evolves).endsAt ends
  refine ⟨(stand 4 0 0 29 before after endsThen).1 key constant rfl ⟨isStarted, found⟩, ?_, ?_⟩
  · obtain ⟨event, foundClaim, answer⟩ := Option.bind_eq_some_iff.mp claims
    obtain ⟨final, rfl⟩ := Event.eq_ended_of_answer? answer
    exact ⟨33, 34, final, by decide, foundClaim⟩
  · split at fails
    · rename_i outcome final ended
      cases fails
      exact ⟨final, ended⟩
    · contradiction

/-- A mixed definition makes a proxy take back what it has reported of an accessor. -/
theorem Script.run_report_taken_back :
    let key := PropertyKey.symbol ⟨0, none⟩
    let accessor := Descriptor.accessor none none true false
    let mixed : Descriptor := { get := some .undefined, value := some .null }
    let heap := Heap.Command.runAll (.start {}) [
      .allocate 0 .ordinary none false, .defineOwn 0 key accessor,
      .allocate 0 .ordinary none false, .allocate 0 (.proxy ⟨0, 1, false⟩) none false]
    let script : Script Unit Unit := .ask (.call (.getOwnProperty 2 key)) fun _ =>
      .ask (.call (.defineOwnProperty 2 key mixed)) fun _ =>
        .ask (.call (.getOwnProperty 2 key)) fun _ => .done ()
    let journal := script.journal (fun _ _ _ => .done (.ok .undefined)) 3 ⟨heap, 0, ()⟩
    heap.Reachable ∧ heap.EndsAt 2 0 ∧
      ∃ since after, journal[since]? =
          some (Event.ended 0 (.getOwnProperty 2 key) (.ok (some accessor)) after) ∧
        ¬ journal.StaysFixed since 2 key accessor := by
  intro key accessor mixed heap script journal
  have isProxy : heap.kind 2 = .proxy ⟨0, 1, false⟩ := by decide
  refine ⟨⟨{}, _, rfl⟩, .proxy isProxy (.ordinary (by decide) (by decide)), ?_⟩
  have reports : (journal[5]?.bind (Event.answer? (.getOwnProperty 2 key) 0)) =
      some (some accessor) := by decide +kernel
  have reportsAgain : (journal[17]?.bind (Event.answer? (.getOwnProperty 2 key) 12)) =
      some (some (.data .null ⟨false, true, false⟩)) := by decide +kernel
  clear_value journal
  obtain ⟨_, found, answer⟩ := Option.bind_eq_some_iff.mp reports
  obtain ⟨after, rfl⟩ := Event.eq_ended_of_answer? answer
  refine ⟨5, after, found, fun stays => ?_⟩
  obtain ⟨_, foundAgain, answerAgain⟩ := Option.bind_eq_some_iff.mp reportsAgain
  obtain ⟨after', rfl⟩ := Event.eq_ended_of_answer? answerAgain
  obtain ⟨later, isLater, persists⟩ :=
    stays.getOwnProperty _ ⟨12, 17, after', by decide, foundAgain⟩
  cases isLater
  exact absurd persists.isAccessor (by decide)

end ObjectModel
