import ObjectModel.Proofs.Heap.Command

/-!
Contract: what a proxy is bound to by the object at the end of its target chain.

A target chain never changes (`Heap.EndsAt`), whether or not its proxies are revoked. So a
fixed property of the last object pins every later description of it (`Heap.Pins`), and a
last object that is not extensible has the prototype that it has for good (`Heap.Closes`).

Does not own: that proxies keep to it.
-/

namespace ObjectModel.Heap

/-- The target chain of an object ends at one that is not exotic. -/
inductive EndsAt (heap : Heap) : (id last : ObjectId) → Prop
  | ordinary {id : ObjectId} (inRange : id < heap.objects.size)
      (ordinary : heap.isExotic id = false) : EndsAt heap id id
  | proxy {id last : ObjectId} {link : ProxyLink} (isProxy : heap.kind id = .proxy link)
      (rest : EndsAt heap link.target last) : EndsAt heap id last

/-- The description may have been given of a property that the last target has fixed. -/
def Pins (heap : Heap) (id : ObjectId) (key : PropertyKey) (description : Descriptor) : Prop :=
  ∃ last current, heap.EndsAt id last ∧ heap.getOwn last key = some current ∧
    description.Persists current

/-- The last target is not extensible. -/
structure Closes (heap : Heap) (id last : ObjectId) : Prop where
  ends : heap.EndsAt id last
  closed : heap.isExtensible last = false

namespace EndsAt

variable {heap : Heap} {id last : ObjectId}

theorem last_lt (ends : heap.EndsAt id last) : last < heap.objects.size := by
  induction ends with
  | ordinary inRange _ => exact inRange
  | proxy _ _ inductionHypothesis => exact inductionHypothesis

/-- The chain of a proxy goes on with its target. -/
theorem target (ends : heap.EndsAt id last) {link : ProxyLink}
    (isProxy : heap.kind id = .proxy link) : heap.EndsAt link.target last := by
  cases ends with
  | ordinary _ ordinary =>
      rw [isExotic_of_kind isProxy] at ordinary
      contradiction
  | proxy isProxy' rest =>
      rw [isProxy] at isProxy'
      cases isProxy'
      exact rest

theorem eq_of_ordinary (ends : heap.EndsAt id last) (ordinary : heap.isExotic id = false) :
    last = id := by
  cases ends with
  | ordinary _ _ => rfl
  | proxy isProxy _ =>
      rw [isExotic_of_kind isProxy] at ordinary
      contradiction

end EndsAt

/-! ### Later heaps -/

namespace Follows

variable {before after : Heap} (follows : before.Follows after) {id last : ObjectId}

include follows

/-- A proxy keeps its target, and loses it only for its own methods when it is revoked. -/
theorem isProxy {link : ProxyLink} (isProxy : before.kind id = .proxy link) :
    ∃ link', after.kind id = .proxy link' ∧ link'.target = link.target := by
  have inRange := lt_of_isExotic (isExotic_of_kind isProxy)
  rcases follows.kind_eq id inRange with same | ⟨link', isProxy', isRevoked⟩
  · exact ⟨link, same.trans isProxy, rfl⟩
  · rw [isProxy] at isProxy'
    cases isProxy'
    exact ⟨_, isRevoked, rfl⟩

theorem endsAt (ends : before.EndsAt id last) : after.EndsAt id last := by
  induction ends with
  | ordinary inRange ordinary =>
      exact .ordinary (Nat.lt_of_lt_of_le inRange follows.size_le)
        ((follows.isExotic_eq inRange).trans ordinary)
  | proxy isProxy _ inductionHypothesis =>
      obtain ⟨link', isProxy', target_eq⟩ := follows.isProxy isProxy
      exact .proxy isProxy' (target_eq ▸ inductionHypothesis)

variable (wellFormed : before.WellFormed)

include wellFormed

theorem pins {key : PropertyKey} {description : Descriptor}
    (pinned : before.Pins id key description) : after.Pins id key description := by
  obtain ⟨last, current, ends, found, persists⟩ := pinned
  obtain ⟨result, resultFound, persists'⟩ :=
    (follows.preserves wellFormed ends.last_lt).fixed key current found persists.configurable
  exact ⟨last, result, follows.endsAt ends, resultFound, persists.trans persists'⟩

theorem closes (closed : before.Closes id last) : after.Closes id last :=
  ⟨follows.endsAt closed.ends,
    (follows.preserves wellFormed closed.ends.last_lt).closed closed.closed⟩

end Follows

theorem Pins.target {heap : Heap} {id : ObjectId} {key : PropertyKey}
    {description : Descriptor} (pinned : heap.Pins id key description) {link : ProxyLink}
    (isProxy : heap.kind id = .proxy link) : heap.Pins link.target key description := by
  obtain ⟨last, current, ends, found, persists⟩ := pinned
  exact ⟨last, current, ends.target isProxy, found, persists⟩

theorem Pins.ofTarget {heap : Heap} {id : ObjectId} {key : PropertyKey}
    {description : Descriptor} {link : ProxyLink} (isProxy : heap.kind id = .proxy link)
    (pinned : heap.Pins link.target key description) : heap.Pins id key description := by
  obtain ⟨last, current, ends, found, persists⟩ := pinned
  exact ⟨last, current, .proxy isProxy ends, found, persists⟩

/-- A description that persists in a pinned one is pinned itself. -/
theorem Pins.of_persists {heap : Heap} {id : ObjectId} {key : PropertyKey}
    {earlier description : Descriptor} (persists : earlier.Persists description)
    (pinned : heap.Pins id key description) : heap.Pins id key earlier := by
  obtain ⟨last, current, ends, found, persists'⟩ := pinned
  exact ⟨last, current, ends, found, persists.trans persists'⟩

theorem Closes.target {heap : Heap} {id last : ObjectId} (closed : heap.Closes id last)
    {link : ProxyLink} (isProxy : heap.kind id = .proxy link) : heap.Closes link.target last :=
  ⟨closed.ends.target isProxy, closed.closed⟩

end ObjectModel.Heap
