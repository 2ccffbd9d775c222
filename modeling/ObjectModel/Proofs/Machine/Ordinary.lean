import ObjectModel.Proofs.Heap.Definition
import ObjectModel.Proofs.Heap.KeyOrder
import ObjectModel.Proofs.Machine.Evolution

/-!
Contract: what the internal methods of ordinary objects answer.

A definition is accepted exactly where the rules allow it. It then leaves the overlay of the
change and nothing else behind, and making it again changes nothing; refused or failed, it
leaves no trace. The keys are listed by number and then by the order of their creation.

Does not own: what happens along prototypes (`Machine.Writing`).
-/

namespace ObjectModel

variable {σ : Type} (host : Host σ) (fuel : Nat) (world : World σ) {id : ObjectId}

/-- A look at an object that is not exotic. -/
theorem Call.run_getOwn (ordinary : world.heap.isExotic id = false) (key : PropertyKey) :
    Call.run host (fuel + 1) (.getOwnProperty id key) world =
      .ok (world.heap.getOwn id key) world := by
  rw [Call.run, Call.step, Machine.byKind_ordinary ordinary]
  rfl

theorem Call.run_isExtensible (ordinary : world.heap.isExotic id = false) :
    Call.run host (fuel + 1) (.isExtensible id) world =
      .ok (world.heap.isExtensible id) world := by
  rw [Call.run, Call.step, Machine.byKind_ordinary ordinary]
  rfl

theorem Call.run_keys (ordinary : world.heap.isExotic id = false) (strings symbols : Bool) :
    Call.run host (fuel + 1) (.ownKeys id strings symbols) world =
      .ok ((world.heap.ownKeys id).filter (·.isWanted strings symbols)) world := by
  rw [Call.run, Call.step, Exec.bind_apply, Machine.byKind_ordinary ordinary]
  rfl

theorem Call.run_allKeys (ordinary : world.heap.isExotic id = false) :
    Call.run host (fuel + 1) (.allKeys id) world = .ok (world.heap.ownKeys id) world := by
  rw [Call.run_keys host fuel world ordinary, PropertyKey.filter_isWanted_all]

theorem Call.run_preventExtensions (ordinary : world.heap.isExotic id = false) :
    Call.run host (fuel + 1) (.preventExtensions id) world =
      .ok .accepted { world with heap := world.heap.preventExtensions id } := by
  rw [Call.run, Call.step, Machine.byKind_ordinary ordinary]
  rfl

/-- A data property is read where the search finds it. -/
theorem Call.run_get_data (ordinary : world.heap.isExotic id = false) {key : PropertyKey}
    {holder : ObjectId} {attributes : Attributes} {value : Value}
    (found : world.heap.findProperty id key = .found holder attributes (.data value))
    (receiver : Value) :
    Call.run host (fuel + 1) (.get id key receiver) world = .ok (some value) world := by
  rw [Call.run, Call.step, Machine.byKind_ordinary ordinary, Machine.ordinaryGet, Exec.heap_bind]
  simp only [found]
  rfl

/-- A getter is called with the objects in hand that led to it. -/
theorem Call.run_get_accessor (ordinary : world.heap.isExotic id = false) {key : PropertyKey}
    {holder getter : ObjectId} {attributes : Attributes} {setter : Option ObjectId}
    (found : world.heap.findProperty id key =
      .found holder attributes (.accessor (some getter) setter)) (receiver : Value) :
    Call.run host (fuel + 1) (.get id key receiver) world =
      (Exec.holding (world.heap.inHand holder (.accessor (some getter) setter))
        (Call.run host fuel (.call getter receiver [])) >>= fun value => pure (some value))
          world := by
  rw [Call.run, Call.step, Machine.byKind_ordinary ordinary, Machine.ordinaryGet, Exec.heap_bind]
  simp only [found, Machine.readSlot]

/-- So is a setter, with the value to be written. -/
theorem Call.run_set_accessor (ordinary : world.heap.isExotic id = false) {key : PropertyKey}
    {holder setter : ObjectId} {attributes : Attributes} {getter : Option ObjectId}
    (found : world.heap.findProperty id key =
      .found holder attributes (.accessor getter (some setter))) (value receiver : Value) :
    Call.run host (fuel + 1) (.set id key value receiver) world =
      Exec.holding (world.heap.inHand holder (.accessor getter (some setter)))
        (Call.run host fuel (.call setter receiver [value]) >>= fun _ => pure .accepted)
          world := by
  have isAccessor : (Descriptor.ofStored attributes (.accessor getter (some setter))).isAccessor =
    true := rfl
  have isSetter : (Descriptor.ofStored attributes (.accessor getter (some setter))).setter? =
    some setter := rfl
  rw [Call.run, Call.step, Machine.byKind_ordinary ordinary, Machine.ordinarySet, Exec.heap_bind]
  simp only [found, Machine.setWithOwn, isAccessor, if_true, isSetter]

/-- The search has an object that is not exotic if no exotic object comes first. -/
theorem Call.run_has (ordinary : world.heap.isExotic id = false) (key : PropertyKey)
    (noProxy : ∀ next, world.heap.findProperty id key ≠ .exotic next) :
    Call.run host (fuel + 1) (.has id key) world =
      .ok (decide (world.heap.findProperty id key ≠ .missing)) world := by
  rw [Call.run, Call.step, Machine.byKind_ordinary ordinary, Machine.ordinaryHas, Exec.heap_bind]
  cases search : world.heap.findProperty id key with
  | found holder attributes slot => rfl
  | exotic next => exact absurd search (noProxy next)
  | missing => rfl

/-! ### Definitions -/

/-- A definition on an object that is not exotic. -/
theorem Call.run_defineOwn (ordinary : world.heap.isExotic id = false) {key : PropertyKey}
    {change : Descriptor} {after : Heap} {result : Except TypeFault Verdict}
    (defined : world.heap.defineOwn id key change = (after, result)) :
    Call.run host (fuel + 1) (.defineOwnProperty id key change) world =
      match result with
      | .ok verdict => .ok verdict { world with heap := after }
      | .error fault => .error (.error (.type fault)) { world with heap := after } := by
  rw [Call.run, Call.step, Machine.byKind_ordinary ordinary, Exec.onHeapOrRaise,
    Exec.bind_apply, Exec.onHeap]
  simp only [defined]
  cases result <;> rfl

/-- Defining a property of an object that is not exotic, in every heap that any definitions,
deletions, writes and protections lead to. The check decides the rules; if all accessor
functions can be called, its answer is the answer. An accepted definition leaves the property
as overlaid and everything else as it was, and may be repeated without effect. A refusal
changes nothing, and neither does an error, which only names an accessor function. -/
theorem Call.run_defineOwnProperty (reachable : world.heap.Reachable)
    (inRange : id < world.heap.objects.size) (ordinary : world.heap.isExotic id = false)
    (key : PropertyKey) {change : Descriptor} (notMixed : change.isMixed = false) :
    let run := Call.run host (fuel + 1) (.defineOwnProperty id key change)
    let current := world.heap.getOwn id key
    let compatible := change.isCompatible key (world.heap.isExtensible id) current
    (compatible = true ↔ change.MayDefine (world.heap.isExtensible id) current) ∧
      (change.NamesFunctions world.heap.isCallable →
        ∃ verdict after, run world = .ok verdict after ∧ verdict.isAccepted = compatible) ∧
      (∀ after, run world = .ok .accepted after →
        (∃ heap, after = { world with heap := heap }) ∧
          world.heap.Defines id key (change.overlay current) after.heap ∧
          ∃ again, run after = .ok .accepted { after with heap := again } ∧
            again.SameContent after.heap) ∧
      (∀ reason after, run world = .ok (.refused reason) after → after = world) ∧
      ∀ fault after, run world = .error fault after → after = world ∧
        ¬change.NamesFunctions world.heap.isCallable ∧
        ∃ role value, fault = .error (.type (.accessorNotFunction role value)) := by
  intro run current compatible
  have wellFormed := reachable.wellFormed
  refine ⟨Descriptor.isCompatible_iff wellFormed.isFull_getOwn notMixed key _, ?_⟩
  cases decided : compatible with
  | false =>
      obtain ⟨reason, refused⟩ := Heap.defineOwn_incompatible id key change decided
      have answer : run world = .ok (.refused reason) world :=
        Call.run_defineOwn host fuel world ordinary refused
      rw [answer]
      refine ⟨fun _ => ⟨_, world, rfl, rfl⟩, ?_, ?_, ?_⟩
      · intro after ended
        cases ended
      · intro _ after ended
        cases ended
        rfl
      · intro _ after ended
        cases ended
  | true =>
      by_cases functions : change.NamesFunctions world.heap.isCallable
      · obtain ⟨after, accepted, defines, again, repeated, same⟩ :=
          wellFormed.defineOwn_defines inRange notMixed functions decided
        have answer : run world = .ok .accepted { world with heap := after } :=
          Call.run_defineOwn host fuel world ordinary accepted
        rw [answer]
        refine ⟨fun _ => ⟨_, _, rfl, rfl⟩, ?_, ?_, ?_⟩
        · intro _ ended
          cases ended
          have stillOrdinary : after.isExotic id = false :=
            (Heap.isExotic_congr (defines.kind_eq id)).trans ordinary
          exact ⟨⟨after, rfl⟩, defines, again,
            Call.run_defineOwn host fuel { world with heap := after } stillOrdinary repeated,
            same⟩
        · intro _ _ ended
          cases ended
        · intro _ _ ended
          cases ended
      · obtain ⟨role, value, fails⟩ := wellFormed.defineOwn_fails notMixed functions decided
        have answer : run world = .error (.error (.type (.accessorNotFunction role value)))
            world := Call.run_defineOwn host fuel world ordinary fails
        rw [answer]
        refine ⟨fun named => absurd named functions, ?_, ?_, ?_⟩
        · intro _ ended
          cases ended
        · intro _ _ ended
          cases ended
        · intro _ _ ended
          cases ended
          exact ⟨rfl, functions, role, value, rfl⟩

/-- A data property becomes an accessor: it stays enumerable and configurable, and has no
setter. -/
theorem Call.run_defineOwnProperty_accessor :
    let key := PropertyKey.symbol ⟨0, none⟩
    let heap := Heap.Command.runAll (.start {}) [
      .allocate 0 .ordinary none false,
      .defineOwn 0 key (.data .null .assigned)]
    let change : Descriptor := { get := some .undefined }
    heap.Reachable ∧ 0 < heap.objects.size ∧ heap.isExotic 0 = false ∧
      change.isMixed = false ∧
      ∃ after, Call.run (fun _ _ _ => .done (.ok .undefined)) 1 (.defineOwnProperty 0 key change)
          ⟨heap, 0, ()⟩ = .ok .accepted ⟨after, 0, ()⟩ ∧
        after.getOwn 0 key = some (.accessor none none true true) := by
  intro key heap change
  have reachable : heap.Reachable := ⟨{}, _, rfl⟩
  have inRange : 0 < heap.objects.size := by decide
  have ordinary : heap.isExotic 0 = false := by decide
  have notMixed : change.isMixed = false := rfl
  have isExtensible : heap.isExtensible 0 = true := by decide
  have found : heap.getOwn 0 key = some (.data .null .assigned) := by decide
  clear_value heap
  refine ⟨reachable, inRange, ordinary, notMixed, ?_⟩
  obtain ⟨-, answers, accepted, -, -⟩ := Call.run_defineOwnProperty
    (fun _ _ _ => .done (.ok .undefined) : Host Unit) 0 ⟨heap, 0, ()⟩ reachable inRange ordinary
    key notMixed
  have functions : change.NamesFunctions heap.isCallable := by
    constructor
    · rintro _ ⟨⟩
      exact .inl rfl
    · rintro _ ⟨⟩
  obtain ⟨verdict, after, ended, isAccepted⟩ := answers functions
  simp only [isExtensible, found] at isAccepted
  cases verdict with
  | refused reason => exact absurd (isAccepted.trans rfl : false = true) Bool.false_ne_true
  | accepted =>
      obtain ⟨⟨heap', rfl⟩, defines, -⟩ := accepted after ended
      refine ⟨heap', ended, ?_⟩
      have getOwn_eq := defines.getOwn_eq
      simp only [found] at getOwn_eq
      exact getOwn_eq

/-! ### Keys -/

/-- The keys of an object that is not exotic, at any moment of any history. Those that are
wanted are listed once each, for exactly the properties that the object has: array indices by
number, then strings, then symbols, the latter two in the order of their latest creation. A
list that is said to be in order is the sorted list. -/
theorem Call.run_ownKeys {config : Config} {history : List Heap.Command} {moment : Nat}
    (reached : world.heap = .atMoment config history moment)
    (ordinary : world.heap.isExotic id = false) (strings symbols : Bool) :
    ∃ all, Call.run host (fuel + 1) (.allKeys id) world = .ok all world ∧
      let keys := all.filter (·.isWanted strings symbols)
      Call.run host (fuel + 1) (.ownKeys id strings symbols) world = .ok keys world ∧
        keys.Nodup ∧
        (∀ key, key ∈ keys ↔ key.isWanted strings symbols = true ∧
          ∃ current, Call.run host (fuel + 1) (.getOwnProperty id key) world =
            .ok (some current) world) ∧
        keys.Pairwise (PropertyKey.Precedes (Heap.CreatedBefore config history id moment)) ∧
        all = PropertyKey.sorted (world.heap.keys id) ∧
        (world.heap.keysOrdered id = true →
          world.heap.keys id = PropertyKey.sorted (world.heap.keys id)) := by
  have wellFormed : world.heap.WellFormed :=
    reached ▸ (Heap.reachable_atMoment config history moment).wellFormed
  have ordered : (world.heap.ownKeys id).Pairwise
      (PropertyKey.Precedes (Heap.CreatedBefore config history id moment)) := by
    rw [reached]
    exact Heap.ownKeys_precedes id moment
  refine ⟨world.heap.ownKeys id, Call.run_allKeys host fuel world ordinary,
    Call.run_keys host fuel world ordinary strings symbols,
    (wellFormed.nodup_ownKeys id).filter _, ?_,
    ordered.filter _, ?_, fun inOrder => (wellFormed.sorted_keys id inOrder).symm⟩
  · intro key
    rw [List.mem_filter, wellFormed.mem_ownKeys, Call.run_getOwn host fuel world ordinary, and_comm]
    refine and_congr_right fun _ => ?_
    constructor
    · intro present
      obtain ⟨current, found⟩ := Option.isSome_iff_exists.mp present
      exact ⟨current, by rw [found]⟩
    · rintro ⟨current, found⟩
      injection found with found
      rw [found]
      rfl
  · rw [wellFormed.ownKeys_eq, wellFormed.keys_eq]

/-- A key that was deleted and added again is listed last among its kind. -/
theorem Call.run_ownKeys_again :
    let index := PropertyKey.index 1 (by decide)
    let first := PropertyKey.symbol ⟨0, none⟩
    let second := PropertyKey.symbol ⟨1, none⟩
    let history : List Heap.Command := [
      .allocate 0 .ordinary none false,
      .defineOwn 0 index (.data .null .assigned),
      .defineOwn 0 first (.data .null .assigned),
      .defineOwn 0 second (.data .null .assigned),
      .deleteOwn 0 first,
      .defineOwn 0 first (.data .null .assigned)]
    let heap := Heap.atMoment {} history 6
    heap.isExotic 0 = false ∧
      Call.run (fun _ _ _ => .done (.ok .undefined)) 1 (.ownKeys 0 true true) ⟨heap, 0, ()⟩ =
        .ok [index, second, first] ⟨heap, 0, ()⟩ ∧
      Heap.CreatedBefore {} history 0 6 second first := by
  intro index first second history heap
  have reached : heap = .atMoment {} history 6 := rfl
  have ordinary : heap.isExotic 0 = false := by decide
  have keys : heap.keys 0 = [index, second, first] := by decide
  have sorted : PropertyKey.sorted [index, second, first] = [index, second, first] :=
    PropertyKey.sorted_of_inEnumerationOrder (by decide)
  clear_value heap
  obtain ⟨all, answer, -, -, -, ordered, all_eq, -⟩ := Call.run_ownKeys
    (fun _ _ _ => .done (.ok .undefined) : Host Unit) 0 ⟨heap, 0, ()⟩ reached ordinary true true
  simp only [keys, sorted] at all_eq
  subst all_eq
  refine ⟨ordinary, answer, ?_⟩
  have pair : PropertyKey.Precedes (Heap.CreatedBefore {} history 0 6) second first :=
    List.pairwise_iff_forall_sublist.mp ordered (List.sublist_cons_self _ _)
  cases pair with
  | age _ _ created => exact created
  | kind ascending => exact absurd ascending (by decide)
  | index isLeft => contradiction

end ObjectModel
