import ObjectModel.Proofs.Machine.Description
import ObjectModel.Proofs.Proxy.Honesty

/-!
Contract: properties as proxies report and change them.

Every method describes the target's property after its trap ran. A fixed property cannot
have been left out of that description, so the checks against it are checks against what was
promised before.
-/

namespace ObjectModel.Machine

variable {σ : Type} {dispatch : Dispatch σ} (honest : IsHonest dispatch)
  {before after : World σ} (wellFormed : before.heap.WellFormed)

/-! ### Descriptions -/

/-- What a description that passes the check has to do with the target's property. -/
private theorem checkDescription_passes {key : PropertyKey} {extensible : Bool}
    {current : Option Descriptor} {result : Descriptor} (resultFull : result.IsFull)
    (currentFull : ∀ description, current = some description → description.IsFull)
    (passes : checkDescription key extensible current result = none) :
    (current = none → extensible = true) ∧
      (∀ description, current = some description → description.isConfigurable = false →
        description.Persists result) ∧
      (result.isConfigurable = false → ∃ description, current = some description ∧
        description.isConfigurable = false ∧ result.Persists description) := by
  unfold checkDescription at passes
  split at passes
  · cases passes
  rename_i compatible
  cases current with
  | none =>
      refine ⟨fun _ => ?_, fun _ isSome => ?_, fun fixed => ?_⟩
      · cases extensible with
        | true => rfl
        | false => exact absurd rfl compatible
      · cases isSome
      · rw [fixed] at passes
        cases passes
  | some current =>
      have admitted : current.admits result = true := by
        by_contra notAdmitted
        simp [Descriptor.isCompatible, Descriptor.refusal?, notAdmitted] at compatible
      have agrees := Descriptor.agrees_of_admits (currentFull current rfl) resultFull
      refine ⟨fun isNone => ?_, fun description isSome notConfigurable => ?_, fun fixed => ?_⟩
      · cases isNone
      · cases isSome
        exact (agrees notConfigurable admitted).persists
      · rw [if_neg (by rw [fixed]; exact Bool.false_ne_true)] at passes
        simp only at passes
        split at passes
        · cases passes
        rename_i notConfigurable
        rw [Bool.not_eq_true] at notConfigurable
        refine ⟨current, rfl, notConfigurable,
          (agrees notConfigurable admitted).persists_symm ?_⟩
        rintro ⟨readOnly, writable⟩
        simp [readOnly, writable] at passes

include honest wellFormed

/-- A closed target is not extensible, whatever description is in hand. -/
private theorem isExtensibleWith_closed {target last : ObjectId} {current : Option Descriptor}
    {answer : Bool} (ended : isExtensibleWith dispatch target current before = .ok answer after)
    (closed : before.heap.Closes target last) : answer = false := by
  obtain ⟨first, final, ended, held, -⟩ := Exec.holding_follows wellFormed ended
  exact (honest.call held.wellFormed ended trivial).2.1 last (held.closes wellFormed closed)

/-- A property that the trap passes over is one that the target may lose. -/
private theorem checkAbsence_honest {start : Heap} {proxy target : ObjectId}
    {key : PropertyKey} {current : Descriptor} {answer : Option Descriptor}
    (binds : start.Binds proxy target before.heap)
    (describes : start.Describes before.heap proxy key (some current))
    (ended : (if !current.isConfigurable then Exec.violation .fixedPropertyAbsent
      else do
        if ← dispatch (.isExtensible target) then return none
        else Exec.violation .propertyOfFixedTargetAbsent : Exec σ (Option Descriptor)) before =
      .ok answer after) :
    start.Binds proxy target after.heap ∧ start.Describes after.heap proxy key answer := by
  split at ended
  · cases ended
  rename_i configurable
  obtain ⟨extensible, tested, follows, -, rest⟩ := honest.bind wellFormed ended trivial
  split at rest
  · cases rest
    refine ⟨binds.later follows, ?_, ?_, ?_, fun _ _ _ => rfl⟩
    · intro description isSome
      cases isSome
    · intro description isSome
      cases isSome
    · intro description pinned
      obtain ⟨later, isCurrent, persists⟩ := describes.pinned description pinned
      cases isCurrent
      rw [persists.configurable] at configurable
      contradiction
  · cases rest

/-- The answer that a description from the trap leads to. -/
private theorem checkPresence_honest {start : Heap} {proxy target : ObjectId}
    {key : PropertyKey} {current answer : Option Descriptor} {result : Value}
    (binds : start.Binds proxy target before.heap)
    (describes : start.Describes before.heap proxy key current)
    (ended : (do
      let extensible ← dispatch (.isExtensible target)
      let description := (← readDescription dispatch result).complete
      match checkDescription key extensible current description with
      | some violation => Exec.violation violation
      | none => return some description) before = .ok answer after) :
    start.Binds proxy target after.heap ∧ start.Describes after.heap proxy key answer := by
  obtain ⟨extensible, tested, follows, ⟨closes, -⟩, rest⟩ := honest.bind wellFormed ended trivial
  obtain ⟨description, read, isRead, rest⟩ := Exec.bind_eq_ok rest
  have reading : Exec.IsEvolving (readDescription dispatch result) := fun start =>
    readDescription_agrees start.compatible_since (honest.agrees start) result
  have follows := follows.trans (reading.follows follows.wellFormed isRead)
  obtain ⟨passes, rfl, rfl⟩ := checked_eq_ok rest
  have admissible := readDescription_admissible dispatch result isRead
  have full := Descriptor.isFull_complete admissible.notMixed
  obtain ⟨openIfAbsent, keeps, fixes⟩ := checkDescription_passes full describes.full passes
  refine ⟨binds.later follows, ?_, ?_, ?_, ?_⟩
  · intro _ isSome
    cases isSome
    exact full
  · intro _ isSome notConfigurable last ends
    cases isSome
    obtain ⟨current, isCurrent, currentFixed, persists⟩ := fixes notConfigurable
    exact follows.pins wellFormed
      ((describes.fixes current isCurrent currentFixed last ends).of_persists persists)
  · intro earlier pinned
    obtain ⟨later, isCurrent, persists⟩ := describes.pinned earlier pinned
    exact ⟨_, rfl, persists.trans (keeps later isCurrent persists.configurable)⟩
  · intro last closed absent
    have extensible_eq := openIfAbsent (describes.closed last closed absent)
    rw [closes last (binds.closes closed)] at extensible_eq
    contradiction

theorem proxyGetOwnProperty_honest {proxy : ObjectId} {key : PropertyKey}
    {answer : Option Descriptor}
    (ended : proxyGetOwnProperty dispatch proxy key before = .ok answer after) :
    Call.Honest before.heap after.heap (.getOwnProperty proxy key) answer := by
  obtain ⟨target, between, binds, forwarded | ⟨ask, final, asks, consulted, ended⟩⟩ :=
    throughTrap_cases honest wellFormed ended
  · obtain ⟨follows, describes⟩ := honest.call binds.wellFormed_now forwarded trivial
    exact binds.describes follows describes
  · obtain ⟨result, asked, binds, rest⟩ := binds.bind (asks _) consulted
    split at rest
    · cases rest
    obtain ⟨first, last, rest, held, released⟩ :=
      Exec.holding_follows binds.wellFormed_now rest
    have binds := binds.later held
    obtain ⟨current, described, binds, describes, rest⟩ := describe_target honest binds rest
    obtain ⟨first', last', rest, held', released'⟩ :=
      Exec.holding_follows binds.wellFormed_now rest
    have describes := describes.later binds.wellFormed_now held'
    have binds := binds.later held'
    have checked : before.heap.Binds proxy target last'.heap ∧
        before.heap.Describes last'.heap proxy key answer := by
      split at rest
      · cases current with
        | none =>
            cases rest
            exact ⟨binds, describes⟩
        | some current =>
            exact checkAbsence_honest honest binds.wellFormed_now binds describes rest
      · exact checkPresence_honest honest binds.wellFormed_now binds describes rest
    obtain ⟨binds, describes⟩ := checked
    have released' := released' binds.wellFormed_now
    have released := released'.trans (released released'.wellFormed)
    exact describes.later binds.wellFormed_now (released.trans (ended released.wellFormed))

/-! ### Access -/

/-- What passes the check is a definition of a property that the target has, if the target
is closed. -/
theorem proxyDefineOwnProperty_honest {proxy : ObjectId} {key : PropertyKey}
    {change : Descriptor} (notMixed : change.isMixed = false) {answer : Verdict}
    (ended : proxyDefineOwnProperty dispatch proxy key change before = .ok answer after) :
    Call.Honest before.heap after.heap (.defineOwnProperty proxy key change) answer := by
  intro last closed accepted absent
  obtain ⟨target, between, binds, forwarded | ⟨ask, final, asks, consulted, -⟩⟩ :=
    throughTrap_cases honest wellFormed ended
  · have isForwarded := accepted_of_forwarded forwarded accepted
    have honestVerdict := (honest.call binds.wellFormed_now isForwarded notMixed).2
    exact honestVerdict last (binds.closes closed) rfl (binds.absent closed absent)
  · obtain ⟨object, described, isDescribed, rest⟩ := Exec.bind_eq_ok consulted
    obtain ⟨rfl, rfl⟩ := Exec.onHeap_eq_ok isDescribed
    have binds := binds.later
      (binds.wellFormed_now.follows_describe (between.heap.object target).store change)
    obtain ⟨last', rest, -⟩ := Exec.andFinally_eq_ok rest
    obtain ⟨result, asked, binds, rest⟩ := binds.bind (asks _) rest
    split at rest
    · cases rest
      contradiction
    obtain ⟨current, described, binds, describes, rest⟩ := describe_target honest binds rest
    cases describes.closed last closed absent
    obtain ⟨extensible, tested, isTested, rest⟩ := Exec.bind_eq_ok rest
    rw [isExtensibleWith_closed honest binds.wellFormed_now isTested (binds.closes closed)] at rest
    cases rest

theorem proxyHas_honest {proxy : ObjectId} {key : PropertyKey} {answer : Bool}
    (ended : proxyHas dispatch proxy key before = .ok answer after) :
    Call.Honest before.heap after.heap (.has proxy key) answer := by
  intro description pinned
  obtain ⟨target, between, binds, forwarded | ⟨ask, final, asks, consulted, -⟩⟩ :=
    throughTrap_cases honest wellFormed ended
  · exact (honest.call binds.wellFormed_now forwarded trivial).2 description (binds.pins pinned)
  · obtain ⟨result, asked, binds, rest⟩ := binds.bind (asks _) consulted
    split at rest
    · cases rest
      rfl
    obtain ⟨current, described, -, describes, rest⟩ := describe_target honest binds rest
    obtain ⟨later, rfl, persists⟩ := describes.pinned description pinned
    simp only [persists.configurable, Bool.not_false, if_true] at rest
    cases rest

theorem proxyGet_honest {proxy : ObjectId} {key : PropertyKey} {receiver : Value}
    {answer : Option Value}
    (ended : proxyGet dispatch proxy key receiver before = .ok answer after) :
    Call.Honest before.heap after.heap (.get proxy key receiver) answer := by
  intro description pinned isData readOnly
  obtain ⟨target, between, binds, forwarded | ⟨ask, final, asks, consulted, -⟩⟩ :=
    throughTrap_cases honest wellFormed ended
  · obtain ⟨found, final, -, honestValue, rest⟩ :=
      honest.bind binds.wellFormed_now forwarded trivial
    cases rest
    obtain ⟨value, rfl, sameValue⟩ :=
      honestValue description (binds.pins pinned) isData readOnly
    exact ⟨value, rfl, sameValue⟩
  · obtain ⟨result, asked, binds, rest⟩ := binds.bind (asks _) consulted
    obtain ⟨current, described, isDescribed, rest⟩ := Exec.bind_eq_ok rest
    obtain ⟨first, last, isDescribed, held, -⟩ :=
      Exec.holding_follows binds.wellFormed_now isDescribed
    have binds := binds.later held
    obtain ⟨follows, describes⟩ := honest.call binds.wellFormed_now isDescribed trivial
    have describes := binds.describes follows describes
    obtain ⟨later, rfl, persists⟩ := describes.pinned description pinned
    obtain ⟨passes, rfl, rfl⟩ := checked_eq_ok rest
    refine ⟨result, rfl, Value.same_trans ?_ (persists.value isData readOnly)⟩
    by_contra notSame
    rw [Bool.not_eq_true] at notSame
    simp [checkReported, persists.configurable, persists.isData, isData,
      persists.writable readOnly, notSame] at passes

theorem proxySet_honest {proxy : ObjectId} {key : PropertyKey} {value receiver : Value}
    {answer : Verdict}
    (ended : proxySet dispatch proxy key value receiver before = .ok answer after) :
    Call.Honest before.heap after.heap (.set proxy key value receiver) answer := by
  intro description pinned isData readOnly accepted
  obtain ⟨target, between, binds, forwarded | ⟨ask, final, asks, consulted, -⟩⟩ :=
    throughTrap_cases honest wellFormed ended
  · have isForwarded := accepted_of_forwarded forwarded accepted
    exact (honest.call binds.wellFormed_now isForwarded trivial).2 description (binds.pins pinned)
      isData readOnly rfl
  · obtain ⟨result, asked, binds, rest⟩ := binds.bind (asks _) consulted
    split at rest
    · cases rest
      contradiction
    obtain ⟨current, described, -, describes, rest⟩ := describe_target honest binds rest
    obtain ⟨later, rfl, persists⟩ := describes.pinned description pinned
    obtain ⟨passes, -, -⟩ := checked_eq_ok rest
    refine Value.same_trans ?_ (persists.value isData readOnly)
    by_contra notSame
    rw [Bool.not_eq_true] at notSame
    simp [checkWritten, persists.configurable, persists.isData, isData,
      persists.writable readOnly, notSame] at passes

theorem proxyDelete_honest {proxy : ObjectId} {key : PropertyKey} {answer : Verdict}
    (ended : proxyDelete dispatch proxy key before = .ok answer after) :
    Call.Honest before.heap after.heap (.delete proxy key) answer := by
  intro description pinned accepted
  obtain ⟨target, between, binds, forwarded | ⟨ask, final, asks, consulted, -⟩⟩ :=
    throughTrap_cases honest wellFormed ended
  · have isForwarded := accepted_of_forwarded forwarded accepted
    exact (honest.call binds.wellFormed_now isForwarded trivial).2 description (binds.pins pinned)
      rfl
  · obtain ⟨result, asked, binds, rest⟩ := binds.bind (asks _) consulted
    split at rest
    · cases rest
      contradiction
    obtain ⟨current, described, -, describes, rest⟩ := describe_target honest binds rest
    obtain ⟨later, rfl, persists⟩ := describes.pinned description pinned
    simp only [persists.configurable, Bool.not_false, if_true] at rest
    cases rest

end ObjectModel.Machine
