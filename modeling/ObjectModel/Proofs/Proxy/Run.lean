import ObjectModel.Proofs.Proxy.Extensibility
import ObjectModel.Proofs.Proxy.Keys
import ObjectModel.Proofs.Proxy.Properties

/-!
Contract: every internal method is honest, at any depth.

An object that is not exotic answers from what it has. A proxy is honest if the methods it
calls are, which are one level less deep; so all of them are, by induction on the fuel, and
however many proxies stand between the first and the last target.
-/

namespace ObjectModel

variable {σ : Type}

/-! ### Objects that are not exotic -/

namespace Heap

variable {heap : Heap} {id last : ObjectId} (ordinary : heap.isExotic id = false)

include ordinary

theorem Pins.own {key : PropertyKey} {description : Descriptor}
    (pinned : heap.Pins id key description) :
    id < heap.objects.size ∧
      ∃ current, heap.getOwn id key = some current ∧ description.Persists current := by
  obtain ⟨last, current, ends, found, persists⟩ := pinned
  have isLast := ends.eq_of_ordinary ordinary
  subst isLast
  exact ⟨ends.last_lt, current, found, persists⟩

/-- A walk stops at the first object if that has the key. -/
theorem findProperty_of_getOwn (inRange : id < heap.objects.size) {key : PropertyKey}
    {current : Descriptor} (found : heap.getOwn id key = some current) :
    ∃ attributes slot, heap.findProperty id key = .found id attributes slot ∧
      current = .ofStored attributes slot := by
  obtain ⟨⟨attributes, slot⟩, stored, rfl⟩ := Option.map_eq_some_iff.mp found
  refine ⟨attributes, slot, ?_, rfl⟩
  unfold findProperty walk
  obtain ⟨steps, size_eq⟩ := Nat.exists_eq_succ_of_ne_zero (Nat.ne_zero_of_lt inRange)
  rw [size_eq, walkWithin, ordinary]
  simp only [Bool.false_eq_true, if_false, searchChain, stored]

end Heap

theorem Heap.WellFormed.mem_ownKeys_iff {heap : Heap} (wellFormed : heap.WellFormed)
    (id : ObjectId) (key : PropertyKey) :
    key ∈ heap.ownKeys id ↔ heap.getOwn id key ≠ none := by
  have inKeys : key ∈ heap.keys id ↔ heap.getOwn id key ≠ none := by
    rw [Ne, wellFormed.getOwn_eq_none_iff, not_not, wellFormed.keys_eq]
  unfold Heap.ownKeys
  split
  · exact inKeys
  · rw [PropertyKey.sorted, List.mem_mergeSort]
    exact inKeys

namespace Machine

variable {dispatch : Dispatch σ} {before after : World σ} {id : ObjectId}
  (ordinary : before.heap.isExotic id = false)

include ordinary

theorem ordinaryHas_honest {key : PropertyKey} {answer : Bool}
    (ended : ordinaryHas dispatch id key before = .ok answer after) :
    Call.Honest before.heap after.heap (.has id key) answer := by
  intro description pinned
  obtain ⟨inRange, current, found, -⟩ := pinned.own ordinary
  obtain ⟨attributes, slot, search, -⟩ := Heap.findProperty_of_getOwn ordinary inRange found
  obtain ⟨heap, between, read, rest⟩ := Exec.bind_eq_ok ended
  cases read
  rw [search] at rest
  cases rest
  rfl

theorem ordinaryGet_honest {key : PropertyKey} {receiver : Value} {answer : Option Value}
    (ended : ordinaryGet dispatch id key receiver before = .ok answer after) :
    Call.Honest before.heap after.heap (.get id key receiver) answer := by
  intro description pinned isData readOnly
  obtain ⟨inRange, current, found, persists⟩ := pinned.own ordinary
  obtain ⟨attributes, slot, search, rfl⟩ := Heap.findProperty_of_getOwn ordinary inRange found
  obtain ⟨heap, between, read, rest⟩ := Exec.bind_eq_ok ended
  cases read
  simp only [search] at rest
  cases slot with
  | data value =>
      cases rest
      exact ⟨value, rfl, persists.value isData readOnly⟩
  | accessor getter setter =>
      have notData := persists.isData
      rw [isData] at notData
      contradiction

/-- Nothing is written where a fixed property is read-only. -/
theorem ordinarySet_honest {key : PropertyKey} {value receiver : Value} {answer : Verdict}
    (ended : ordinarySet dispatch id key value receiver before = .ok answer after) :
    Call.Honest before.heap after.heap (.set id key value receiver) answer := by
  intro description pinned isData readOnly accepted
  obtain ⟨inRange, current, found, persists⟩ := pinned.own ordinary
  obtain ⟨attributes, slot, search, rfl⟩ := Heap.findProperty_of_getOwn ordinary inRange found
  obtain ⟨heap, between, read, rest⟩ := Exec.bind_eq_ok ended
  cases read
  simp only [search] at rest
  obtain ⟨last, rest, -⟩ := Exec.holding_eq_ok rest
  cases slot with
  | data old =>
      have notWritable : (Descriptor.ofStored attributes (.data old)).isWritable = false :=
        persists.writable readOnly
      have notAccessor : (Descriptor.ofStored attributes (.data old)).isAccessor = false := rfl
      simp only [setWithOwn, notAccessor, notWritable, Bool.false_eq_true, if_false,
        Bool.not_false, if_true] at rest
      cases rest
      contradiction
  | accessor getter setter =>
      have notData := persists.isData
      rw [isData] at notData
      contradiction

end Machine

namespace Heap

variable {heap : Heap} {id : ObjectId} (ordinary : heap.isExotic id = false)

include ordinary

theorem honest_setPrototypeOf {after : Heap} (prototype : Option ObjectId) :
    Call.Honest heap after (.setPrototypeOf id prototype)
      (heap.setPrototypeOf id prototype).2 := by
  intro last closed accepted
  have isLast := closed.ends.eq_of_ordinary ordinary
  subst isLast
  unfold setPrototypeOf at accepted
  split at accepted
  · rename_i same
    exact same.symm
  · rw [closed.closed] at accepted
    contradiction

theorem honest_getOwn (key : PropertyKey) :
    Call.Honest heap heap (.getOwnProperty id key) (heap.getOwn id key) where
  full := by
    intro description found
    obtain ⟨⟨attributes, slot⟩, -, rfl⟩ := Option.map_eq_some_iff.mp found
    exact Descriptor.isFull_ofStored attributes slot
  fixes := by
    intro description found notConfigurable last ends
    have isLast := ends.eq_of_ordinary ordinary
    subst isLast
    exact ⟨last, description, ends, found, .refl notConfigurable⟩
  pinned := by
    intro description pinned
    exact (pinned.own ordinary).2
  closed := by
    intro last closed absent
    have isLast := closed.ends.eq_of_ordinary ordinary
    subst isLast
    exact absent

/-- A closed object takes no definition of a new property. -/
theorem honest_defineOwn {after : Heap} {key : PropertyKey} {change : Descriptor}
    {verdict : Verdict} (answers : (heap.defineOwn id key change).2 = .ok verdict) :
    Call.Honest heap after (.defineOwnProperty id key change) verdict := by
  intro last closed accepted absent
  have isLast := closed.ends.eq_of_ordinary ordinary
  subst isLast
  unfold defineOwn validateAndApply at answers
  rw [absent, closed.closed] at answers
  simp only [Descriptor.refusal?, Bool.false_eq_true, if_false] at answers
  cases answers
  contradiction

theorem honest_deleteOwn {after : Heap} (key : PropertyKey) :
    Call.Honest heap after (.delete id key) (heap.deleteOwn id key).2 := by
  intro description pinned accepted
  obtain ⟨-, current, found, persists⟩ := pinned.own ordinary
  obtain ⟨⟨attributes, slot⟩, stored, rfl⟩ := Option.map_eq_some_iff.mp found
  have notConfigurable : attributes.configurable = false := by
    have fixed := persists.configurable
    cases slot <;> exact fixed
  unfold deleteOwn at accepted
  simp only [stored, notConfigurable, Bool.false_eq_true, if_false] at accepted
  contradiction

variable (wellFormed : heap.WellFormed)

include wellFormed

theorem honest_preventExtensions :
    Call.Honest heap (heap.preventExtensions id) (.preventExtensions id) .accepted := by
  intro last ends _
  have isLast := ends.eq_of_ordinary ordinary
  subst isLast
  have follows := (wellFormed.moves_preventExtensions last).follows wellFormed
  refine ⟨follows.endsAt ends, ?_⟩
  rw [isExtensible_eq, (wellFormed.updates_preventExtensions last).view_eq ends.last_lt]
  rfl

theorem honest_ownKeys : Call.Honest heap heap (.allKeys id) (heap.ownKeys id) := by
  refine ⟨fun key description pinned _ => ?_, fun last closed key member => ?_⟩
  · obtain ⟨-, current, found, -⟩ := pinned.own ordinary
    rw [wellFormed.mem_ownKeys_iff, found]
    exact Option.some_ne_none current
  · have isLast := closed.ends.eq_of_ordinary ordinary
    subst isLast
    exact (wellFormed.mem_ownKeys_iff last key).mp member

end Heap

/-! ### Every method -/

/-- A method by kind is honest if it is for both kinds of objects. -/
private theorem Machine.byKind_honest {method : Call} {id : ObjectId}
    {exotic computation : Exec σ method.Answer} {before after : World σ}
    {answer : method.Answer}
    (ended : Machine.byKind id exotic computation before = .ok answer after)
    (ofExotic : ∀ {first last : World σ}, first.heap = before.heap →
      exotic first = .ok answer last → Call.Honest first.heap last.heap method answer)
    (ofOrdinary : before.heap.isExotic id = false → computation before = .ok answer after →
      Call.Honest before.heap after.heap method answer) :
    Call.Honest before.heap after.heap method answer := by
  cases isExotic : before.heap.isExotic id with
  | false =>
      rw [Machine.byKind_ordinary isExotic] at ended
      exact ofOrdinary isExotic ended
  | true =>
      rw [Machine.byKind_exotic isExotic] at ended
      obtain ⟨last, inner, closed⟩ := Exec.inProxyFrame_eq_ok ended
      rw [closed]
      -- Only the depth differs, and no answer is about that.
      have answered := ofExotic (by rfl) inner
      exact answered

open Machine in
theorem Call.step_honest {host : Host σ} {dispatch : Dispatch σ} (honest : IsHonest dispatch)
    {method : Call} (proper : method.IsProper) {before after : World σ}
    {answer : method.Answer} (wellFormed : before.heap.WellFormed)
    (ended : Call.step host dispatch method before = .ok answer after) :
    Call.Honest before.heap after.heap method answer := by
  cases method with
  | getPrototypeOf id =>
      refine byKind_honest ended (fun same inner =>
        proxyGetPrototypeOf_honest honest (same ▸ wellFormed) inner) fun ordinary read => ?_
      cases read
      intro last closed
      rw [closed.ends.eq_of_ordinary ordinary]
  | setPrototypeOf id prototype =>
      refine byKind_honest ended (fun same inner =>
        proxySetPrototypeOf_honest honest (same ▸ wellFormed) inner) fun ordinary taken => ?_
      obtain ⟨rfl, -⟩ := Exec.onHeap_eq_ok taken
      exact Heap.honest_setPrototypeOf ordinary prototype
  | isExtensible id =>
      refine byKind_honest ended (fun same inner =>
        proxyIsExtensible_honest honest (same ▸ wellFormed) inner) fun ordinary read => ?_
      cases read
      refine ⟨fun last closed => ?_, fun last ends refused => ⟨ends, ?_⟩⟩
      · rw [← closed.ends.eq_of_ordinary ordinary]
        exact closed.closed
      · rw [ends.eq_of_ordinary ordinary]
        exact refused
  | preventExtensions id =>
      refine byKind_honest ended (fun same inner =>
        proxyPreventExtensions_honest honest (same ▸ wellFormed) inner) fun ordinary taken => ?_
      obtain ⟨rfl, rfl⟩ := Exec.onHeap_eq_ok taken
      exact Heap.honest_preventExtensions ordinary wellFormed
  | getOwnProperty id key =>
      refine byKind_honest ended (fun same inner =>
        proxyGetOwnProperty_honest honest (same ▸ wellFormed) inner) fun ordinary read => ?_
      cases read
      exact Heap.honest_getOwn ordinary key
  | defineOwnProperty id key change =>
      refine byKind_honest ended (fun same inner =>
        proxyDefineOwnProperty_honest honest (same ▸ wellFormed) proper inner)
        fun ordinary taken => ?_
      exact Heap.honest_defineOwn ordinary (Exec.onHeapOrRaise_eq_ok taken).1
  | has id key =>
      exact byKind_honest ended (fun same inner =>
        proxyHas_honest honest (same ▸ wellFormed) inner) fun ordinary ended =>
          ordinaryHas_honest ordinary ended
  | get id key receiver =>
      exact byKind_honest ended (fun same inner =>
        proxyGet_honest honest (same ▸ wellFormed) inner) fun ordinary ended =>
          ordinaryGet_honest ordinary ended
  | set id key value receiver =>
      exact byKind_honest ended (fun same inner =>
        proxySet_honest honest (same ▸ wellFormed) inner) fun ordinary ended =>
          ordinarySet_honest ordinary ended
  | delete id key =>
      refine byKind_honest ended (fun same inner =>
        proxyDelete_honest honest (same ▸ wellFormed) inner) fun ordinary taken => ?_
      obtain ⟨rfl, -⟩ := Exec.onHeap_eq_ok taken
      exact Heap.honest_deleteOwn ordinary key
  | ownKeys id strings symbols =>
      obtain ⟨keys, last, ended, rest⟩ := Exec.bind_eq_ok ended
      cases rest
      refine .filter (byKind_honest ended (fun same inner =>
        proxyOwnKeys_honest honest (same ▸ wellFormed) inner) fun ordinary read => ?_) _ _
      cases read
      exact Heap.honest_ownKeys ordinary wellFormed
  | call id this arguments => trivial

/-- Internal methods of any depth are honest, whatever the user code is. -/
theorem Call.run_isHonest {host : Host σ} (hostProper : host.IsProper) (fuel : Nat) :
    IsHonest (Call.run host fuel) := by
  induction fuel with
  | zero =>
      refine ⟨Call.run_agrees hostProper 0, fun _ _ _ _ _ _ ended => ?_⟩
      cases ended
  | succ fuel inductionHypothesis =>
      refine ⟨Call.run_agrees hostProper (fuel + 1), fun _ proper _ _ _ wellFormed ended => ?_⟩
      exact Call.step_honest inductionHypothesis proper wellFormed ended

end ObjectModel
