import ObjectModel.Proofs.Proxy.Honesty

/-!
Contract: the keys that proxies report.

The list from the trap is compared with the target's own keys, each of which is described
once more. That leaves out no fixed key, and no key slips into a closed target.
-/

namespace ObjectModel.Machine

/-- With every given key taken away, the others are left. -/
private theorem removeKeys?_eq_some {keys given others : List PropertyKey}
    (removed : removeKeys? keys given = some others) :
    (∀ key ∈ given, key ∈ keys) ∧ ∀ key ∈ keys, key ∈ given ∨ key ∈ others := by
  induction given generalizing keys with
  | nil =>
      cases removed
      exact ⟨fun _ member => (List.not_mem_nil member).elim, fun _ member => .inr member⟩
  | cons first rest inductionHypothesis =>
      unfold removeKeys? at removed
      split at removed
      · rename_i firstMember
        obtain ⟨present, covered⟩ := inductionHypothesis removed
        refine ⟨fun key member => ?_, fun key member => ?_⟩
        · rcases List.mem_cons.mp member with rfl | later
          · exact firstMember
          · exact List.mem_of_mem_erase (present key later)
        · by_cases isFirst : key = first
          · exact .inl (List.mem_cons.mpr (.inl isFirst))
          · have remains := (List.mem_erase_of_ne isFirst).mpr member
            exact (covered key remains).imp_left (List.mem_cons_of_mem first)
      · cases removed

/-- A list that passes the check has the fixed keys, and no other keys than the target if
that is not extensible. -/
private theorem checkKeyList_passes {extensible : Bool} {fixed loose keys : List PropertyKey}
    (passes : checkKeyList extensible fixed loose keys = none) :
    (∀ key ∈ fixed, key ∈ keys) ∧
      (extensible = false → ∀ key ∈ keys, key ∈ fixed ∨ key ∈ loose) := by
  unfold checkKeyList at passes
  split at passes
  · cases passes
  rename_i others removed
  obtain ⟨present, covered⟩ := removeKeys?_eq_some removed
  refine ⟨present, fun notExtensible key member => ?_⟩
  rw [notExtensible] at passes
  simp only [Bool.false_eq_true, if_false] at passes
  split at passes
  · cases passes
  · rename_i allRemoved
    refine (covered key member).imp_right fun isOther => ?_
    exact ((removeKeys?_eq_some allRemoved).2 key isOther).resolve_right List.not_mem_nil
  · cases passes

variable {σ : Type} {dispatch : Dispatch σ} (honest : IsHonest dispatch)
  {before after : World σ} (wellFormed : before.heap.WellFormed)

include honest wellFormed

/-- The target's keys are split in two, and pinned ones are found fixed. -/
private theorem splitFixedKeys_honest {target : ObjectId} {keys : List PropertyKey}
    {parts : List PropertyKey × List PropertyKey}
    (ended : splitFixedKeys dispatch target keys before = .ok parts after) :
    (∀ key, key ∈ parts.1 ∨ key ∈ parts.2 → key ∈ keys) ∧
      ∀ key ∈ keys, ∀ description, before.heap.Pins target key description →
        key ∈ parts.1 := by
  induction keys generalizing before after parts with
  | nil =>
      cases ended
      exact ⟨fun _ member => member.elim id id, fun _ member => (List.not_mem_nil member).elim⟩
  | cons first rest inductionHypothesis =>
      obtain ⟨current, described, follows, describes, ended⟩ :=
        honest.bind wellFormed ended trivial
      obtain ⟨⟨fixed, loose⟩, split, isSplit, ended⟩ := Exec.bind_eq_ok ended
      obtain ⟨subset, found⟩ := inductionHypothesis follows.wellFormed isSplit
      have foundLater : ∀ key ∈ rest, ∀ description,
          before.heap.Pins target key description → key ∈ fixed :=
        fun key member description pinned =>
          found key member description (follows.pins wellFormed pinned)
      simp only at ended
      split at ended
      · cases ended
        refine ⟨fun key member => ?_, fun key member description pinned => ?_⟩
        · rw [List.mem_cons, or_assoc] at member
          exact List.mem_cons.mpr (member.imp_right (subset key))
        · exact List.mem_cons.mpr ((List.mem_cons.mp member).imp_right fun later =>
            foundLater key later description pinned)
      · rename_i notFixed
        cases ended
        refine ⟨fun key member => ?_, fun key member description pinned => ?_⟩
        · rw [List.mem_cons, or_left_comm] at member
          exact List.mem_cons.mpr (member.imp_right (subset key))
        · rcases List.mem_cons.mp member with rfl | later
          · obtain ⟨current, rfl, persists⟩ := describes.pinned description pinned
            simp [persists.configurable] at notFixed
          · exact foundLater key later description pinned

theorem proxyOwnKeys_honest {proxy : ObjectId} {answer : List PropertyKey}
    (ended : proxyOwnKeys dispatch proxy before = .ok answer after) :
    Call.Honest before.heap after.heap (.allKeys proxy) answer := by
  obtain ⟨target, between, binds, forwarded | ⟨ask, final, asks, consulted, -⟩⟩ :=
    throughTrap_cases honest wellFormed ended
  · obtain ⟨present, known⟩ := (honest.call binds.wellFormed_now forwarded trivial).2
    refine ⟨fun key description pinned => present key description (binds.pins pinned),
      fun last closed key member absent => ?_⟩
    exact known last (binds.closes closed) key member (binds.absent closed absent)
  · obtain ⟨result, asked, binds, rest⟩ := binds.bind (asks _) consulted
    obtain ⟨first, final, rest, held, -⟩ := Exec.holding_follows binds.wellFormed_now rest
    have binds := binds.later held
    have reading : Exec.IsEvolving (readKeyList dispatch result) := fun start =>
      readKeyList_agrees start.compatible_since (honest.agrees start) result
    obtain ⟨keys, read, binds, rest⟩ := binds.bind reading rest
    split at rest
    · cases rest
    obtain ⟨extensible, tested, follows, ⟨closes, -⟩, rest⟩ :=
      honest.bind binds.wellFormed_now rest trivial
    have bindsTested := binds.later follows
    obtain ⟨targetKeys, listed, follows, ⟨present, known⟩, rest⟩ :=
      honest.bind bindsTested.wellFormed_now rest trivial
    have bindsListed := bindsTested.later follows
    obtain ⟨⟨fixed, loose⟩, split, isSplit, rest⟩ := Exec.bind_eq_ok rest
    obtain ⟨subset, found⟩ := splitFixedKeys_honest honest bindsListed.wellFormed_now isSplit
    obtain ⟨passes, rfl, rfl⟩ := checked_eq_ok rest
    obtain ⟨hasFixed, covered⟩ := checkKeyList_passes passes
    refine ⟨fun key description pinned wanted => ?_, fun last closed key member absent => ?_⟩
    · have isKey := present key description (bindsTested.pins pinned) wanted
      exact hasFixed key (found key isKey description (bindsListed.pins pinned))
    · have isKey := subset key (covered (closes last (binds.closes closed)) key member)
      exact known last (bindsTested.closes closed) key isKey (bindsTested.absent closed absent)

end ObjectModel.Machine
