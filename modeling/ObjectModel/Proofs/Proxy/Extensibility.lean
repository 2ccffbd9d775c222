import ObjectModel.Proofs.Proxy.Honesty

/-!
Contract: prototypes and extensibility as proxies report and change them.
-/

namespace ObjectModel.Machine

variable {σ : Type} {dispatch : Dispatch σ} (honest : IsHonest dispatch)
  {before after : World σ} (wellFormed : before.heap.WellFormed)

include honest wellFormed

/-- A prototype that passes the check is that of the last target, if it is closed. -/
private theorem checkPrototype_honest {target last : ObjectId}
    {prototype answer : Option ObjectId}
    (ended : (Exec.holding prototype.toList do
      if ← dispatch (.isExtensible target) then return prototype
      else if (← dispatch (.getPrototypeOf target)) = prototype then return prototype
      else Exec.violation .prototypeOfFixedTarget) before = .ok answer after)
    (closed : before.heap.Closes target last) : answer = before.heap.prototype last := by
  obtain ⟨first, final, ended, held, -⟩ := Exec.holding_follows wellFormed ended
  obtain ⟨extensible, tested, follows, ⟨closes, -⟩, rest⟩ :=
    honest.bind held.wellFormed ended trivial
  have stillClosed := held.closes wellFormed closed
  rw [closes last stillClosed] at rest
  obtain ⟨current, read, -, honestCurrent, rest⟩ := honest.bind follows.wellFormed rest trivial
  have isCurrent := honestCurrent last (follows.closes held.wellFormed stillClosed)
  split at rest
  · rename_i same
    cases rest
    rw [← same, isCurrent, follows.prototype_eq last stillClosed.ends.last_lt stillClosed.closed,
      held.prototype_eq last closed.ends.last_lt closed.closed]
  · cases rest

theorem proxyGetPrototypeOf_honest {proxy : ObjectId} {answer : Option ObjectId}
    (ended : proxyGetPrototypeOf dispatch proxy before = .ok answer after) :
    Call.Honest before.heap after.heap (.getPrototypeOf proxy) answer := by
  intro last closed
  obtain ⟨target, between, binds, forwarded | ⟨ask, final, asks, consulted, -⟩⟩ :=
    throughTrap_cases honest wellFormed ended
  · rw [(honest.call binds.wellFormed_now forwarded trivial).2 last (binds.closes closed),
      binds.prototype_eq closed]
  · obtain ⟨result, asked, binds, rest⟩ := binds.bind (asks _) consulted
    have checked : ∀ prototype : Option ObjectId,
        (Exec.holding prototype.toList do
          if ← dispatch (.isExtensible target) then return prototype
          else if (← dispatch (.getPrototypeOf target)) = prototype then return prototype
          else Exec.violation .prototypeOfFixedTarget) asked = .ok answer final →
            answer = before.heap.prototype last := by
      intro prototype ended
      rw [checkPrototype_honest honest binds.wellFormed_now ended (binds.closes closed),
        binds.prototype_eq closed]
    split at rest
    · exact checked _ rest
    · exact checked _ rest
    · cases rest

theorem proxySetPrototypeOf_honest {proxy : ObjectId} {prototype : Option ObjectId}
    {answer : Bool}
    (ended : proxySetPrototypeOf dispatch proxy prototype before = .ok answer after) :
    Call.Honest before.heap after.heap (.setPrototypeOf proxy prototype) answer := by
  intro last closed accepted
  obtain ⟨target, between, binds, forwarded | ⟨ask, final, asks, consulted, -⟩⟩ :=
    throughTrap_cases honest wellFormed ended
  · rw [(honest.call binds.wellFormed_now forwarded trivial).2 last (binds.closes closed) accepted,
      binds.prototype_eq closed]
  · obtain ⟨result, asked, binds, rest⟩ := binds.bind (asks _) consulted
    split at rest
    · cases rest
      contradiction
    obtain ⟨extensible, tested, follows, ⟨closes, -⟩, rest⟩ :=
      honest.bind binds.wellFormed_now rest trivial
    rw [closes last (binds.closes closed)] at rest
    have binds := binds.later follows
    obtain ⟨current, read, -, honestCurrent, rest⟩ := honest.bind binds.wellFormed_now rest trivial
    have isCurrent := honestCurrent last (binds.closes closed)
    split at rest
    · rename_i same
      rw [← same, isCurrent, binds.prototype_eq closed]
    · cases rest

theorem proxyIsExtensible_honest {proxy : ObjectId} {answer : Bool}
    (ended : proxyIsExtensible dispatch proxy before = .ok answer after) :
    Call.Honest before.heap after.heap (.isExtensible proxy) answer := by
  obtain ⟨target, between, binds, forwarded | ⟨ask, final, asks, consulted, released⟩⟩ :=
    throughTrap_cases honest wellFormed ended
  · obtain ⟨follows, closes, closesAfter⟩ := honest.call binds.wellFormed_now forwarded trivial
    refine ⟨fun last closed => closes last (binds.closes closed), fun last ends refused => ?_⟩
    exact (binds.later follows).closes_proxy (closesAfter last (binds.endsAt ends) refused)
  · obtain ⟨result, asked, binds, rest⟩ := binds.bind (asks _) consulted
    obtain ⟨extensible, tested, follows, ⟨closes, closesAfter⟩, rest⟩ :=
      honest.bind binds.wellFormed_now rest trivial
    split at rest
    · rename_i same
      cases rest
      rw [same]
      refine ⟨fun last closed => closes last (binds.closes closed), fun last ends refused => ?_⟩
      have isClosed := closesAfter last (binds.endsAt ends) refused
      exact (released follows.wellFormed).closes follows.wellFormed
        ((binds.later follows).closes_proxy isClosed)
    · cases rest

theorem proxyPreventExtensions_honest {proxy : ObjectId} {answer : Verdict}
    (ended : proxyPreventExtensions dispatch proxy before = .ok answer after) :
    Call.Honest before.heap after.heap (.preventExtensions proxy) answer := by
  intro last ends accepted
  obtain ⟨target, between, binds, forwarded | ⟨ask, final, asks, consulted, released⟩⟩ :=
    throughTrap_cases honest wellFormed ended
  · have isForwarded := accepted_of_forwarded forwarded accepted
    obtain ⟨follows, closesAfter⟩ := honest.call binds.wellFormed_now isForwarded trivial
    exact (binds.later follows).closes_proxy (closesAfter last (binds.endsAt ends) rfl)
  · obtain ⟨result, asked, binds, rest⟩ := binds.bind (asks _) consulted
    split at rest
    · cases rest
      contradiction
    obtain ⟨extensible, tested, follows, ⟨-, closesAfter⟩, rest⟩ :=
      honest.bind binds.wellFormed_now rest trivial
    split at rest
    · cases rest
    · rename_i refused
      cases rest
      have isClosed := closesAfter last (binds.endsAt ends) (Bool.not_eq_true _ ▸ refused)
      exact (released follows.wellFormed).closes follows.wellFormed
        ((binds.later follows).closes_proxy isClosed)

end ObjectModel.Machine
