import Mathlib.Data.List.Perm.Subperm
import ObjectModel.Proofs.Heap.Command

/-!
Contract: walks along prototypes end.

`Heap.Chain` lists what a walk visits: ordinary objects, and at most one exotic object, which
ends the walk. A heap is `Chained` if its prototypes exist and every walk ends. Then no walk
visits an object twice, so the bounded `Heap.walk` visits all of the chain, and
`Heap.admitsPrototype` refuses exactly the prototypes that would close a ring.

Every command keeps a heap chained if the prototype that it names exists
(`Command.chained`). Proxies cut a walk, so rings through the targets of proxies do not
matter.

Does not own: that programs name objects that exist.
-/

namespace ObjectModel

def ChainStep.id : ChainStep → ObjectId
  | .ordinary id => id
  | .exotic id => id

namespace Heap

/-- A link that a walk follows: the stored prototype of an object that is not exotic. -/
def Link (heap : Heap) (id next : ObjectId) : Prop :=
  heap.isExotic id = false ∧ heap.prototype id = some next

/-- The objects of a walk that ends. -/
inductive Chain (heap : Heap) : Option ObjectId → List ChainStep → Prop
  | null : Chain heap none []
  | exotic {id : ObjectId} (isExotic : heap.isExotic id = true) :
      Chain heap (some id) [.exotic id]
  | ordinary {id : ObjectId} {steps : List ChainStep} (notExotic : heap.isExotic id = false)
      (rest : Chain heap (heap.prototype id) steps) :
      Chain heap (some id) (.ordinary id :: steps)

namespace Chain

variable {heap : Heap} {start : Option ObjectId} {steps : List ChainStep}

/-- A walk has no choice. -/
theorem unique {other : List ChainStep} (chain : heap.Chain start steps)
    (chain' : heap.Chain start other) : other = steps := by
  induction chain generalizing other with
  | null =>
      cases chain'
      rfl
  | exotic isExotic =>
      cases chain' with
      | exotic _ => rfl
      | ordinary notExotic _ => simp [isExotic] at notExotic
  | ordinary notExotic _ inductionHypothesis =>
      cases chain' with
      | exotic isExotic => simp [isExotic] at notExotic
      | ordinary _ rest => rw [inductionHypothesis rest]

/-- Behind an object on a chain comes the chain of this object. -/
theorem suffix_of_mem {step : ChainStep} (chain : heap.Chain start steps)
    (member : step ∈ steps) : ∃ suffix, heap.Chain (some step.id) suffix ∧ suffix <:+ steps := by
  induction chain with
  | null => contradiction
  | exotic isExotic =>
      obtain rfl := List.mem_singleton.mp member
      exact ⟨_, .exotic isExotic, List.suffix_rfl⟩
  | ordinary notExotic rest inductionHypothesis =>
      rcases List.mem_cons.mp member with rfl | inRest
      · exact ⟨_, .ordinary notExotic rest, List.suffix_rfl⟩
      · obtain ⟨suffix, chain, isSuffix⟩ := inductionHypothesis inRest
        exact ⟨suffix, chain, isSuffix.trans (List.suffix_cons _ _)⟩

/-- A walk that ends has not come back to an object. -/
theorem nodup (chain : heap.Chain start steps) : (steps.map ChainStep.id).Nodup := by
  induction chain with
  | null => exact .nil
  | exotic isExotic => exact List.nodup_singleton _
  | @ordinary id steps notExotic rest inductionHypothesis =>
      rw [List.map_cons, List.nodup_cons]
      refine ⟨fun again => ?_, inductionHypothesis⟩
      obtain ⟨step, member, same⟩ := List.mem_map.mp again
      obtain ⟨suffix, chain, isSuffix⟩ := rest.suffix_of_mem member
      -- the chain of the object would be a proper part of itself
      have same' : step.id = id := same
      rw [same'] at chain
      have whole : suffix = .ordinary id :: steps := unique (.ordinary notExotic rest) chain
      have shorter := isSuffix.length_le
      rw [whole, List.length_cons] at shorter
      omega

/-- An ordinary object is on a chain if links lead there. -/
theorem mem_iff {id : ObjectId} (notExotic : heap.isExotic id = false)
    (chain : heap.Chain start steps) :
    .ordinary id ∈ steps ↔
      ∃ first, start = some first ∧ Relation.ReflTransGen heap.Link first id := by
  induction chain with
  | null => simp
  | @exotic first isExotic =>
      constructor
      · intro member
        cases List.mem_singleton.mp member
      · rintro ⟨_, same, links⟩
        obtain rfl := Option.some.inj same
        rcases links.cases_head with rfl | ⟨next, link, -⟩
        · simp [isExotic] at notExotic
        · simp [Link, isExotic] at link
  | @ordinary first steps ordinary rest inductionHypothesis =>
      constructor
      · intro member
        rcases List.mem_cons.mp member with isFirst | inRest
        · cases isFirst
          exact ⟨id, rfl, .refl⟩
        · obtain ⟨next, link, links⟩ := inductionHypothesis.mp inRest
          exact ⟨first, rfl, links.head ⟨ordinary, link⟩⟩
      · rintro ⟨_, same, links⟩
        obtain rfl := Option.some.inj same
        rcases links.cases_head with rfl | ⟨next, link, rest⟩
        · exact List.mem_cons_self
        · exact List.mem_cons_of_mem _ (inductionHypothesis.mpr ⟨next, link.2, rest⟩)

/-- A walk with steps to spare visits all of the chain. -/
theorem walkWithin_eq (chain : heap.Chain start steps) {bound : Nat}
    (enough : steps.length ≤ bound) : heap.walkWithin bound start = steps := by
  induction chain generalizing bound with
  | null => cases bound <;> rfl
  | exotic isExotic =>
      obtain ⟨bound, rfl⟩ := Nat.exists_eq_add_of_le' enough
      simp [walkWithin, isExotic]
  | ordinary notExotic rest inductionHypothesis =>
      rw [List.length_cons] at enough
      obtain ⟨bound, rfl⟩ := Nat.exists_eq_add_of_le' (Nat.le_of_add_left_le enough)
      rw [walkWithin, if_neg (by simp [notExotic]), inductionHypothesis (by omega)]

/-- Links that are the same make the same chains. -/
theorem congr {after : Heap} (chain : heap.Chain start steps)
    (exotic_eq : ∀ id, after.isExotic id = heap.isExotic id)
    (prototype_eq : ∀ id, after.prototype id = heap.prototype id) :
    after.Chain start steps := by
  induction chain with
  | null => exact .null
  | exotic isExotic => exact .exotic (by rw [exotic_eq, isExotic])
  | ordinary notExotic _ inductionHypothesis =>
      exact .ordinary (by rw [exotic_eq, notExotic]) (by rwa [prototype_eq])

end Chain

/-- An object that does not exist has no properties. -/
theorem WellFormed.lookup_outside {heap : Heap} (wellFormed : heap.WellFormed) {id : ObjectId}
    (outside : heap.objects.size ≤ id) (key : PropertyKey) : heap.lookup id key = none := by
  have stored := wellFormed.storage id
  rw [object_outside outside] at stored
  have isEmpty : (heap.shapes.layout 0).properties = [] :=
    List.eq_nil_of_length_eq_zero stored.2.2.length_eq.symm
  rw [lookup, object_outside outside]
  show ((heap.layout 0).find? key).map _ = none
  rw [layout, Layout.find?, isEmpty]
  rfl

/-! ### Chained heaps -/

/-- Prototypes exist, and every walk ends. -/
structure Chained (heap : Heap) : Prop where
  wellFormed : heap.WellFormed
  prototype_lt : ∀ {id next}, heap.prototype id = some next → next < heap.objects.size
  ends : ∀ start, ∃ steps, heap.Chain start steps

/-- What a prototype has to be. -/
def IsPrototype (heap : Heap) (prototype : Option ObjectId) : Prop :=
  ∀ id ∈ prototype, id < heap.objects.size

theorem object_setPrototype (heap : Heap) (id : ObjectId) (prototype : Option ObjectId)
    (other : ObjectId) :
    (heap.setPrototype id prototype).object other =
      if other = id ∧ id < heap.objects.size then
        { heap.object other with prototype := prototype }
      else heap.object other := by
  rw [setPrototype]
  rcases heap.changed_or_apart id other with ⟨rfl, inRange⟩ | apart
  · rw [object_setObject inRange, if_pos ⟨rfl, inRange⟩]
  · rw [object_setObject_other heap _ apart, if_neg]
    rintro ⟨same, inRange⟩
    exact apart.elim (· same) fun outside => Nat.not_le_of_lt inRange (same ▸ outside)

/-! ### Setting a prototype -/

section SetPrototypeOf

variable (heap : Heap) (id : ObjectId) (prototype : Option ObjectId)

theorem setPrototypeOf_accepts_iff :
    (heap.setPrototypeOf id prototype).2 = true ↔
      heap.prototype id = prototype ∨
        (heap.isExtensible id = true ∧ heap.admitsPrototype id prototype = true) := by
  rw [← Bool.and_eq_true, setPrototypeOf]
  split
  · simp [*]
  · split <;> simp [*]

theorem setPrototypeOf_refused (refused : (heap.setPrototypeOf id prototype).2 = false) :
    (heap.setPrototypeOf id prototype).1 = heap := by
  rw [setPrototypeOf] at refused ⊢
  split at refused
  · contradiction
  · split at refused
    · contradiction
    · rw [if_neg ‹_›, if_neg ‹_›]

/-- Only the link of the object changes. -/
theorem setPrototypeOf_accepted (accepted : (heap.setPrototypeOf id prototype).2 = true) :
    (heap.setPrototypeOf id prototype).1.SameContent
      { heap with
        objects := heap.objects.setIfInBounds id
          { heap.object id with prototype := prototype } } := by
  rw [setPrototypeOf] at accepted ⊢
  split
  · rename_i same
    -- the object is stored again as it is
    subst same
    refine ⟨?_, rfl, rfl⟩
    refine Array.ext (by simp) fun index inRange _ => ?_
    rw [Array.getElem_setIfInBounds]
    split
    · rename_i isChanged
      subst isChanged
      simp [object, Heap.prototype, inRange]
    · rfl
  · split
    · exact sameContent_setObject heap id _
    · rw [if_neg ‹_›, if_neg ‹_›] at accepted
      contradiction

end SetPrototypeOf

namespace Chained

variable {heap : Heap} (chained : heap.Chained)

include chained

theorem id_lt {start : Option ObjectId} {steps : List ChainStep}
    (isStart : heap.IsPrototype start) (chain : heap.Chain start steps) {step : ChainStep}
    (member : step ∈ steps) : step.id < heap.objects.size := by
  induction chain with
  | null => contradiction
  | exotic isExotic =>
      obtain rfl := List.mem_singleton.mp member
      exact isStart _ rfl
  | ordinary notExotic rest inductionHypothesis =>
      rcases List.mem_cons.mp member with rfl | inRest
      · exact isStart _ rfl
      · exact inductionHypothesis (fun _ next => chained.prototype_lt next) inRest

/-- The size of the heap bounds every chain. -/
theorem walk_eq {start : Option ObjectId} {steps : List ChainStep}
    (isStart : heap.IsPrototype start) (chain : heap.Chain start steps) :
    heap.walk start = steps := by
  refine chain.walkWithin_eq ?_
  have inside : steps.map ChainStep.id ⊆ List.range heap.objects.size := by
    intro id member
    obtain ⟨step, stepMember, rfl⟩ := List.mem_map.mp member
    exact List.mem_range.mpr (chained.id_lt isStart chain stepMember)
  have bounded := (chain.nodup.subperm inside).length_le
  rwa [List.length_map, List.length_range] at bounded

/-- An object is looked at before its prototype. -/
theorem findProperty_eq {id : ObjectId} (notExotic : heap.isExotic id = false)
    (key : PropertyKey) :
    heap.findProperty id key =
      match heap.lookup id key with
      | some (attributes, slot) => .found id attributes slot
      | none =>
          match heap.prototype id with
          | none => .missing
          | some parent =>
              if heap.isExotic parent then .exotic parent else heap.findProperty parent key := by
  by_cases inRange : id < heap.objects.size
  · obtain ⟨steps, rest⟩ := chained.ends (heap.prototype id)
    have isStart : heap.IsPrototype (some id) := fun _ isId => Option.some.inj isId ▸ inRange
    rw [findProperty, chained.walk_eq isStart (.ordinary notExotic rest), searchChain]
    cases heap.lookup id key with
    | some found => rfl
    | none =>
        cases prototype : heap.prototype id with
        | none =>
            rw [prototype] at rest
            cases rest
            rfl
        | some parent =>
            rw [prototype] at rest
            have isStart' : heap.IsPrototype (some parent) :=
              fun _ isParent => Option.some.inj isParent ▸ chained.prototype_lt prototype
            simp only [findProperty, chained.walk_eq isStart' rest]
            cases rest with
            | exotic isExotic => simp [isExotic, searchChain]
            | ordinary notExotic' rest => simp [notExotic']
  · -- there is neither an object nor a property
    rw [Nat.not_lt] at inRange
    have prototype : heap.prototype id = none := by
      rw [Heap.prototype, object_outside inRange]
      rfl
    have chain : heap.Chain (some id) [.ordinary id] :=
      .ordinary notExotic (by rw [prototype]; exact .null)
    have missing := chained.wellFormed.lookup_outside inRange key
    rw [missing, prototype, findProperty, walk]
    cases heap.objects.size with
    | zero => rfl
    | succ size =>
        rw [chain.walkWithin_eq (by simp), searchChain, missing]
        rfl

/-- Exactly the prototypes that lead back are refused. -/
theorem admitsPrototype_eq_false_iff {id : ObjectId} (notExotic : heap.isExotic id = false)
    {prototype : Option ObjectId} (isPrototype : heap.IsPrototype prototype) :
    heap.admitsPrototype id prototype = false ↔
      ∃ first, prototype = some first ∧ Relation.ReflTransGen heap.Link first id := by
  obtain ⟨steps, chain⟩ := chained.ends prototype
  rw [← chain.mem_iff notExotic, admitsPrototype, chained.walk_eq isPrototype chain,
    List.all_eq_false]
  simp

/-! ### Commands -/

/-- A heap with the same links. -/
theorem frame {after : Heap} (wellFormed : after.WellFormed)
    (size_le : heap.objects.size ≤ after.objects.size)
    (exotic_eq : ∀ id, after.isExotic id = heap.isExotic id)
    (prototype_eq : ∀ id, after.prototype id = heap.prototype id) : after.Chained where
  wellFormed := wellFormed
  prototype_lt := fun {id next} found => by
    rw [prototype_eq] at found
    exact Nat.lt_of_lt_of_le (chained.prototype_lt found) size_le
  ends := fun start => by
    obtain ⟨steps, chain⟩ := chained.ends start
    exact ⟨steps, chain.congr exotic_eq prototype_eq⟩

theorem congr {after : Heap} (same : after.SameContent heap) : after.Chained :=
  chained.frame (chained.wellFormed.congr same) (Nat.le_of_eq (by rw [same.objects_eq]))
    (fun id => isExotic_congr (same.kind_eq id)) same.prototype_eq

theorem updates {id : ObjectId} {map : PropertyMap} {after : Heap}
    (updates : heap.Updates id map after) : after.Chained :=
  chained.frame updates.wellFormed (Nat.le_of_eq updates.size_eq.symm)
    (fun other => isExotic_congr (updates.kind_eq other)) updates.prototype_eq

/-- A new object comes before a chain that ends. -/
theorem allocate (store : StoreId) (kind : ObjectKind) {prototype : Option ObjectId}
    (isPrototype : heap.IsPrototype prototype) (isLiteral : Bool) :
    (heap.allocate store kind prototype isLiteral).1.Chained := by
  have old : ∀ {id}, id < heap.objects.size →
      (heap.allocate store kind prototype isLiteral).1.object id = heap.object id :=
    fun isOld => (object_allocate ..).trans (if_neg (Nat.ne_of_lt isOld))
  have prototypes : ∀ id, heap.IsPrototype
      ((heap.allocate store kind prototype isLiteral).1.prototype id) := by
    intro id
    rw [Heap.prototype, object_allocate]
    split
    · exact isPrototype
    · exact fun _ next => chained.prototype_lt next
  have oldEnds : ∀ {start}, heap.IsPrototype start → ∃ steps,
      (heap.allocate store kind prototype isLiteral).1.Chain start steps := by
    intro start isStart
    obtain ⟨steps, chain⟩ := chained.ends start
    refine ⟨steps, ?_⟩
    induction chain with
    | null => exact .null
    | exotic isExotic =>
        exact .exotic (by rwa [Heap.isExotic, proxy?, Heap.kind, old (isStart _ rfl)])
    | ordinary notExotic rest inductionHypothesis =>
        refine .ordinary (by rwa [Heap.isExotic, proxy?, Heap.kind, old (isStart _ rfl)]) ?_
        rw [Heap.prototype, old (isStart _ rfl)]
        exact inductionHypothesis fun _ next => chained.prototype_lt next
  refine ⟨chained.wellFormed.allocate store kind prototype isLiteral, ?_, ?_⟩
  · intro id next found
    rw [size_allocate]
    exact Nat.lt_succ_of_lt (prototypes id next found)
  · intro start
    cases start with
    | none => exact ⟨_, .null⟩
    | some id =>
        cases exotic : (heap.allocate store kind prototype isLiteral).1.isExotic id with
        | true => exact ⟨_, .exotic exotic⟩
        | false =>
            obtain ⟨steps, chain⟩ := oldEnds (prototypes id)
            exact ⟨_, .ordinary exotic chain⟩

theorem describe (store : StoreId) (descriptor : Descriptor) :
    (heap.describe store descriptor).1.Chained :=
  (chained.allocate store .ordinary (fun _ member => by cases member) false).updates
    (chained.wellFormed.updates_describe store descriptor)

/-- A prototype replaced by one from which no link leads back. -/
theorem setPrototype {id : ObjectId} {prototype : Option ObjectId}
    (isPrototype : heap.IsPrototype prototype)
    (admitted : heap.admitsPrototype id prototype = true) :
    (heap.setPrototype id prototype).Chained := by
  have exotic_eq : ∀ other, (heap.setPrototype id prototype).isExotic other =
      heap.isExotic other := by
    refine fun other => isExotic_congr ?_
    rw [kind, object_setPrototype]
    split <;> rfl
  have prototype_eq : ∀ other, (heap.setPrototype id prototype).prototype other =
      if other = id ∧ id < heap.objects.size then prototype else heap.prototype other := by
    intro other
    rw [Heap.prototype, object_setPrototype]
    split <;> rfl
  -- chains that do not pass the object stay as they are
  have apart : ∀ {start steps}, heap.Chain start steps → .ordinary id ∉ steps →
      (heap.setPrototype id prototype).Chain start steps := by
    intro start steps chain notPassed
    induction chain with
    | null => exact .null
    | exotic isExotic => exact .exotic (by rw [exotic_eq, isExotic])
    | ordinary notExotic rest inductionHypothesis =>
        rw [List.mem_cons, not_or] at notPassed
        refine .ordinary (by rw [exotic_eq, notExotic]) ?_
        rw [prototype_eq, if_neg fun same => notPassed.1 (congrArg _ same.1.symm)]
        exact inductionHypothesis notPassed.2
  have behind : ∃ steps, (heap.setPrototype id prototype).Chain prototype steps := by
    obtain ⟨steps, chain⟩ := chained.ends prototype
    refine ⟨steps, apart chain fun passed => ?_⟩
    rw [admitsPrototype, chained.walk_eq isPrototype chain, List.all_eq_true] at admitted
    simpa using admitted _ passed
  refine ⟨?_, ?_, ?_⟩
  · refine (view_setObject chained.wellFormed ?_).1
    rfl
  · intro other next found
    rw [Heap.setPrototype, size_setObject]
    rw [prototype_eq] at found
    split at found
    · exact isPrototype next found
    · exact chained.prototype_lt found
  · intro start
    obtain ⟨steps, chain⟩ := chained.ends start
    induction chain with
    | null => exact ⟨_, .null⟩
    | exotic isExotic => exact ⟨_, .exotic (by rw [exotic_eq, isExotic])⟩
    | @ordinary other steps notExotic rest inductionHypothesis =>
        have notExotic' : (heap.setPrototype id prototype).isExotic other = false := by
          rw [exotic_eq, notExotic]
        by_cases isChanged : other = id ∧ id < heap.objects.size
        · obtain ⟨steps, chain⟩ := behind
          exact ⟨_, .ordinary notExotic' (by rwa [prototype_eq, if_pos isChanged])⟩
        · obtain ⟨steps, chain⟩ := inductionHypothesis
          exact ⟨_, .ordinary notExotic' (by rwa [prototype_eq, if_neg isChanged])⟩

theorem revoke (proxy : ObjectId) : (heap.revoke proxy).Chained := by
  unfold Heap.revoke
  cases found : heap.proxy? proxy with
  | none => exact chained
  | some link =>
      have isProxy := proxy?_eq_some.mp found
      refine chained.frame ?_ (Nat.le_of_eq (size_setObject ..).symm) ?_ ?_
      · refine (view_setObject chained.wellFormed ?_).1
        rfl
      · intro id
        rcases heap.changed_or_apart proxy id with ⟨rfl, inRange⟩ | apart
        · rw [isExotic, proxy?, kind, object_setObject inRange, isExotic, found]
          rfl
        · exact isExotic_congr (by rw [kind, object_setObject_other heap _ apart, kind])
      · intro id
        rcases heap.changed_or_apart proxy id with ⟨rfl, inRange⟩ | apart
        · rw [prototype, object_setObject inRange, prototype]
        · rw [prototype, object_setObject_other heap _ apart, prototype]

end Chained

/-- Prototypes that a command names exist. -/
def Command.NamesPrototypes (heap : Heap) : Command → Prop
  | allocate _ _ prototype _ | setPrototypeOf _ prototype => heap.IsPrototype prototype
  | _ => True

/-- A command keeps a heap chained. -/
theorem Command.chained {heap : Heap} (chained : heap.Chained) (command : Command)
    (names : command.NamesPrototypes heap) : (command.run heap).1.Chained := by
  have wellFormed := chained.wellFormed
  cases command with
  | addStore config =>
      exact chained.frame (wellFormed.addStore config) (Nat.le_refl _) (fun _ => rfl)
        fun _ => rfl
  | allocate store kind prototype isLiteral => exact chained.allocate store kind names isLiteral
  | describe store descriptor => exact chained.describe store descriptor
  | revoke proxy => exact chained.revoke proxy
  | setPrototypeOf id prototype =>
      simp only [run, Heap.setPrototypeOf]
      split
      · exact chained
      split
      · rename_i admitted
        rw [Bool.and_eq_true] at admitted
        exact chained.setPrototype names admitted.2
      · exact chained
  | preventExtensions id => exact chained.updates (wellFormed.updates_preventExtensions id)
  | defineOwn id key change =>
      obtain ⟨_, updates⟩ := wellFormed.updates_defineOwn id key change
      exact chained.updates updates
  | writeData id key value => exact chained.updates (wellFormed.updates_writeData id key value)
  | deleteOwn id key =>
      obtain ⟨_, updates, -⟩ := wellFormed.moves_deleteOwn id key
      exact chained.updates updates
  | setIntegrity id level => exact chained.updates (wellFormed.updates_setIntegrity id level)
  | transition store shape step =>
      have objects_eq : (run (.transition store shape step) heap).1.objects = heap.objects :=
        (wellFormed.transition_keeps store shape step).2.2
      exact chained.frame (Command.wellFormed wellFormed (.transition store shape step))
        (Nat.le_of_eq (congrArg Array.size objects_eq).symm)
        (fun id => isExotic_congr (by rw [kind, object, objects_eq, kind, object]))
        fun id => by rw [prototype, object, objects_eq, prototype, object]
  | holdAll ids => exact chained.congr (sameContent_holdAll heap ids)
  | releaseAll ids => exact chained.congr (sameContent_releaseAll heap ids)
  | holdShape shape => exact chained.congr (sameContent_holdShape heap shape)
  | releaseShape shape => exact chained.congr (sameContent_releaseShape heap shape)

/-- No object is ever lost. -/
theorem Command.size_le {heap : Heap} (wellFormed : heap.WellFormed) (command : Command) :
    heap.objects.size ≤ (command.run heap).1.objects.size := by
  have updated : ∀ {id : ObjectId} {map : PropertyMap} {after : Heap},
      heap.Updates id map after → heap.objects.size ≤ after.objects.size :=
    fun updates => Nat.le_of_eq updates.size_eq.symm
  cases command with
  | setPrototypeOf id prototype =>
      simp only [run, Heap.setPrototypeOf]
      split
      · exact Nat.le_refl _
      split
      · exact Nat.le_of_eq (size_setObject ..).symm
      · exact Nat.le_refl _
  | preventExtensions id => exact updated (wellFormed.updates_preventExtensions id)
  | defineOwn id key change =>
      obtain ⟨_, updates⟩ := wellFormed.updates_defineOwn id key change
      exact updated updates
  | writeData id key value => exact updated (wellFormed.updates_writeData id key value)
  | deleteOwn id key =>
      obtain ⟨_, updates, -⟩ := wellFormed.moves_deleteOwn id key
      exact updated updates
  | setIntegrity id level => exact updated (wellFormed.updates_setIntegrity id level)
  | _ => exact (Command.follows wellFormed _ (by trivial)).size_le

end Heap

end ObjectModel
