import ObjectModel.Proofs.Machine.Evolution
import ObjectModel.Proofs.Proxy.Target

/-!
Contract: a proxy says nothing of its last target that is not true, if the methods that it
calls do not.

`Call.Honest` lists what the answer of a method owes to the object at the end of the target
chain: to the properties that were pinned when the method started, and to extensibility.
What a trap returns is checked against the target after the trap ran, and user code between
two checks only moves the target along allowed steps, so the checks still hold at the end.

Does not own: honesty of objects that are not exotic, and of whole runs.
-/

namespace ObjectModel

variable {σ : Type}

/-- What a description owes. A fixed one is pinned from now on; one of a pinned property is
what the pinned one becomes. -/
structure Heap.Describes (before after : Heap) (id : ObjectId) (key : PropertyKey)
    (answer : Option Descriptor) : Prop where
  full : ∀ description, answer = some description → description.IsFull
  fixes : ∀ description, answer = some description → description.isConfigurable = false →
    ∀ last, before.EndsAt id last → after.Pins id key description
  pinned : ∀ description, before.Pins id key description →
    ∃ later, answer = some later ∧ description.Persists later
  closed : ∀ last, before.Closes id last → before.getOwn last key = none → answer = none

/-- What the answer of a method owes to the last target, from the heap at its start to the
heap at its end. -/
def Call.Honest (before after : Heap) : (method : Call) → method.Answer → Prop
  | .getPrototypeOf id, answer =>
      ∀ last, before.Closes id last → answer = before.prototype last
  | .setPrototypeOf id prototype, answer =>
      ∀ last, before.Closes id last → answer = true → prototype = before.prototype last
  | .isExtensible id, answer =>
      (∀ last, before.Closes id last → answer = false) ∧
        ∀ last, before.EndsAt id last → answer = false → after.Closes id last
  | .preventExtensions id, answer =>
      ∀ last, before.EndsAt id last → answer = .accepted → after.Closes id last
  | .getOwnProperty id key, answer => before.Describes after id key answer
  | .defineOwnProperty id key _, answer =>
      ∀ last, before.Closes id last → answer = .accepted → before.getOwn last key ≠ none
  | .has id key, answer => ∀ description, before.Pins id key description → answer = true
  | .get id key _, answer =>
      ∀ description, before.Pins id key description → description.isData = true →
        description.isWritable = false →
          ∃ value, answer = some value ∧ value.same (description.value.getD .undefined) = true
  | .set id key value _, answer =>
      ∀ description, before.Pins id key description → description.isData = true →
        description.isWritable = false → answer = .accepted →
          value.same (description.value.getD .undefined) = true
  | .delete id key, answer =>
      ∀ description, before.Pins id key description → answer ≠ .accepted
  | .ownKeys id strings symbols, answer =>
      (∀ key description, before.Pins id key description →
        key.isWanted strings symbols = true → key ∈ answer) ∧
        ∀ last, before.Closes id last → ∀ key ∈ answer, before.getOwn last key ≠ none
  | .call _ _ _, _ => True

/-- What was honest to list is so with only some kinds of keys wanted. -/
theorem Call.Honest.filter {before after : Heap} {id : ObjectId} {keys : List PropertyKey}
    (honest : Call.Honest before after (.allKeys id) keys) (strings symbols : Bool) :
    Call.Honest before after (.ownKeys id strings symbols)
      (keys.filter (·.isWanted strings symbols)) := by
  obtain ⟨present, known⟩ := honest
  refine ⟨fun key description pinned wanted => ?_, fun last closed key member => ?_⟩
  · exact List.mem_filter.mpr ⟨present key description pinned key.isWanted_all, wanted⟩
  · exact known last closed key (List.mem_of_mem_filter member)

/-- A dispatch that takes allowed commands only, and whose answers are honest. -/
structure IsHonest (dispatch : Dispatch σ) : Prop where
  agrees : ∀ start : Heap, DispatchAgrees start.Since dispatch dispatch
  honest : ∀ (method : Call), method.IsProper → ∀ {before after : World σ}
    {answer : method.Answer}, before.heap.WellFormed → dispatch method before = .ok answer after →
      Call.Honest before.heap after.heap method answer

theorem IsHonest.call {dispatch : Dispatch σ} (honest : IsHonest dispatch) {method : Call}
    {before after : World σ} {answer : method.Answer} (wellFormed : before.heap.WellFormed)
    (ended : dispatch method before = .ok answer after)
    (proper : method.IsProper) :
    before.heap.Follows after.heap ∧ Call.Honest before.heap after.heap method answer := by
  have evolving : Exec.IsEvolving (dispatch method) :=
    fun start => (honest.agrees start).method method proper
  exact ⟨evolving.follows wellFormed ended, honest.honest method proper wellFormed ended⟩

/-- The first method of a sequence, and what is left of it. -/
theorem IsHonest.bind {dispatch : Dispatch σ} (honest : IsHonest dispatch) {α : Type}
    {method : Call} {next : method.Answer → Exec σ α} {before after : World σ} {answer : α}
    (wellFormed : before.heap.WellFormed)
    (ended : (dispatch method >>= next) before = .ok answer after) (proper : method.IsProper) :
    ∃ first between, before.heap.Follows between.heap ∧
      Call.Honest before.heap between.heap method first ∧
        next first between = .ok answer after := by
  obtain ⟨first, between, isFirst, rest⟩ := Exec.bind_eq_ok ended
  obtain ⟨follows, honestFirst⟩ := honest.call wellFormed isFirst proper
  exact ⟨first, between, follows, honestFirst, rest⟩

/-! ### From a proxy to its target -/

/-- The target of a proxy when its method started, and the heap since then. -/
structure Heap.Binds (before : Heap) (proxy target : ObjectId) (now : Heap) : Prop where
  wellFormed : before.WellFormed
  isProxy : ∃ link, before.kind proxy = .proxy link ∧ link.target = target
  follows : before.Follows now

namespace Heap.Binds

variable {before now : Heap} {proxy target : ObjectId}
  (binds : before.Binds proxy target now)

include binds

theorem wellFormed_now : now.WellFormed := binds.follows.wellFormed

theorem later {after : Heap} (follows : now.Follows after) : before.Binds proxy target after :=
  { binds with follows := binds.follows.trans follows }

theorem isProxy_now : ∃ link, now.kind proxy = .proxy link ∧ link.target = target := by
  obtain ⟨link, isProxy, rfl⟩ := binds.isProxy
  exact binds.follows.isProxy isProxy

theorem endsAt {last : ObjectId} (ends : before.EndsAt proxy last) :
    now.EndsAt target last := by
  obtain ⟨link, isProxy, rfl⟩ := binds.isProxy
  exact binds.follows.endsAt (ends.target isProxy)

theorem pins {key : PropertyKey} {description : Descriptor}
    (pinned : before.Pins proxy key description) : now.Pins target key description := by
  obtain ⟨link, isProxy, rfl⟩ := binds.isProxy
  exact binds.follows.pins binds.wellFormed (pinned.target isProxy)

theorem pins_proxy {key : PropertyKey} {description : Descriptor}
    (pinned : now.Pins target key description) : now.Pins proxy key description := by
  obtain ⟨link, isProxy, rfl⟩ := binds.isProxy_now
  exact pinned.ofTarget isProxy

theorem closes {last : ObjectId} (closed : before.Closes proxy last) :
    now.Closes target last := by
  obtain ⟨link, isProxy, rfl⟩ := binds.isProxy
  exact binds.follows.closes binds.wellFormed (closed.target isProxy)

theorem closes_proxy {last : ObjectId} (closed : now.Closes target last) :
    now.Closes proxy last := by
  obtain ⟨link, isProxy, rfl⟩ := binds.isProxy_now
  exact ⟨.proxy isProxy closed.ends, closed.closed⟩

theorem prototype_eq {last : ObjectId} (closed : before.Closes proxy last) :
    now.prototype last = before.prototype last :=
  binds.follows.prototype_eq last closed.ends.last_lt closed.closed

theorem absent {last : ObjectId} (closed : before.Closes proxy last) {key : PropertyKey}
    (noKey : before.getOwn last key = none) : now.getOwn last key = none :=
  (binds.follows.preserves binds.wellFormed closed.ends.last_lt).keys closed.closed key noKey

end Heap.Binds

/-- Any allowed steps, and what is left after them. -/
theorem Heap.Binds.bind {start : Heap} {proxy target : ObjectId} {before after : World σ}
    (binds : start.Binds proxy target before.heap) {α β : Type} {computation : Exec σ α}
    (evolving : Exec.IsEvolving computation) {next : α → Exec σ β} {answer : β}
    (ended : (computation >>= next) before = .ok answer after) :
    ∃ value between, start.Binds proxy target between.heap ∧
      next value between = .ok answer after := by
  obtain ⟨value, between, isValue, rest⟩ := Exec.bind_eq_ok ended
  exact ⟨value, between, binds.later (evolving.follows binds.wellFormed_now isValue), rest⟩

/-! ### Descriptions of the target -/

namespace Heap

theorem Describes.later {before after final : Heap} {id : ObjectId} {key : PropertyKey}
    {answer : Option Descriptor} (describes : before.Describes after id key answer)
    (wellFormed : after.WellFormed) (follows : after.Follows final) :
    before.Describes final id key answer :=
  { describes with
    fixes := fun description isSome fixed last ends =>
      follows.pins wellFormed (describes.fixes description isSome fixed last ends) }

/-- What is said of a target is said of its proxy. -/
theorem Binds.describes {before now after : Heap} {proxy target : ObjectId}
    (binds : before.Binds proxy target now) {key : PropertyKey} {answer : Option Descriptor}
    (follows : now.Follows after) (describes : now.Describes after target key answer) :
    before.Describes after proxy key answer where
  full := describes.full
  fixes := fun description isSome fixed last ends =>
    (binds.later follows).pins_proxy
      (describes.fixes description isSome fixed last (binds.endsAt ends))
  pinned := fun description pinned => describes.pinned description (binds.pins pinned)
  closed := fun last closed absent =>
    describes.closed last (binds.closes closed) (binds.absent closed absent)

end Heap

/-! ### Traps -/

namespace Machine

variable {dispatch : Dispatch σ} (honest : IsHonest dispatch) {before after : World σ}
  (wellFormed : before.heap.WellFormed)

/-- The link that a method of a proxy goes by is the one that the proxy had at first. -/
private theorem findTrap_link {proxy : ObjectId} {trap : Trap}
    {found : ProxyLink × Option ObjectId}
    (ended : findTrap dispatch proxy trap before = .ok found after) :
    before.heap.kind proxy = .proxy found.1 := by
  obtain ⟨heap, between, read, rest⟩ := Exec.bind_eq_ok ended
  cases read
  cases isProxy : before.heap.proxy? proxy with
  | none =>
      rw [isProxy] at rest
      cases rest
  | some link =>
      rw [isProxy] at rest
      simp only at rest
      split at rest
      · cases rest
      obtain ⟨value, asked, -, rest⟩ := Exec.bind_eq_ok rest
      have linkEq : found.1 = link := by
        generalize value.getD .undefined = function at rest
        cases function with
        | undefined =>
            cases rest
            rfl
        | null =>
            cases rest
            rfl
        | _ =>
            obtain ⟨heap, looked, -, rest⟩ := Exec.bind_eq_ok rest
            split at rest
            · cases rest
              rfl
            · cases rest
      rw [linkEq]
      exact Heap.proxy?_eq_some.mp isProxy

/-- A result that is checked at last. -/
theorem checked_eq_ok {α : Type} {violated : Option Violation} {result answer : α}
    (ended : (match violated with
      | some violation => Exec.violation violation
      | none => return result : Exec σ α) before = .ok answer after) :
    violated = none ∧ answer = result ∧ after = before := by
  cases violated with
  | some violation => cases ended
  | none =>
      cases ended
      exact ⟨rfl, rfl, rfl⟩

/-- A verdict that is passed on is accepted only if it was. -/
theorem accepted_of_forwarded {reason : TypeFault} {computation : Exec σ Verdict}
    {answer : Verdict}
    (ended : (do
      let verdict ← computation
      return Verdict.ofBool reason verdict.isAccepted) before = .ok answer after)
    (accepted : answer = .accepted) : computation before = .ok .accepted after := by
  obtain ⟨verdict, between, isVerdict, rest⟩ := Exec.bind_eq_ok ended
  cases rest
  cases verdict with
  | accepted => exact isVerdict
  | refused _ => contradiction

include honest wellFormed

/-- A method of a proxy either forwards to the target or consults a trap, after allowed
steps. What is in hand during the latter is given up at the end. -/
theorem throughTrap_cases {α : Type} {proxy : ObjectId} {trap : Trap}
    {forward : ObjectId → Exec σ α}
    {consult : ObjectId → (List Value → Exec σ Value) → Exec σ α} {answer : α}
    (ended : throughTrap dispatch proxy trap forward consult before = .ok answer after) :
    ∃ target between, before.heap.Binds proxy target between.heap ∧
      (forward target between = .ok answer after ∨
        ∃ ask last, (∀ arguments, Exec.IsEvolving (ask arguments)) ∧
          consult target ask between = .ok answer last ∧
            (last.heap.WellFormed → last.heap.Follows after.heap)) := by
  obtain ⟨⟨link, function⟩, between, found, rest⟩ := Exec.bind_eq_ok ended
  have evolving : Exec.IsEvolving (findTrap dispatch proxy trap) := fun start =>
    findTrap_agrees start.compatible_since (honest.agrees start) proxy trap
  have binds : before.heap.Binds proxy link.target between.heap :=
    ⟨wellFormed, ⟨link, findTrap_link found, rfl⟩, evolving.follows wellFormed found⟩
  cases function with
  | none => exact ⟨link.target, between, binds, .inl rest⟩
  | some function =>
      obtain ⟨held, last, consulted, holds, released⟩ :=
        Exec.holding_follows binds.wellFormed_now rest
      refine ⟨link.target, held, binds.later holds,
        .inr ⟨_, last, fun arguments start => ?_, consulted, released⟩⟩
      exact (honest.agrees start).method _ trivial

omit wellFormed in
/-- The target described, in a method of its proxy, and what is left of that. -/
theorem describe_target {α : Type} {start : Heap} {proxy target : ObjectId} {key : PropertyKey}
    (binds : start.Binds proxy target before.heap) {next : Option Descriptor → Exec σ α}
    {answer : α}
    (ended : (dispatch (.getOwnProperty target key) >>= next) before = .ok answer after) :
    ∃ current described, start.Binds proxy target described.heap ∧
      start.Describes described.heap proxy key current ∧
        next current described = .ok answer after := by
  obtain ⟨current, described, follows, describes, rest⟩ :=
    honest.bind binds.wellFormed_now ended trivial
  exact ⟨current, described, binds.later follows, binds.describes follows describes, rest⟩

end Machine

end ObjectModel
