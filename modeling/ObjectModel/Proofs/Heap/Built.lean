import Mathlib.Data.Finset.Lattice.Fold
import Mathlib.Data.Finset.Range
import ObjectModel.Proofs.Heap.Limits
import ObjectModel.Proofs.Machine.Grounding

/-!
Contract: heaps that are built from objects that exist.

A heap is built (`Heap.IsBuilt`) by any commands, allowed or not, that link to objects which
exist: prototypes, and the targets and handlers of new proxies. Walks along prototypes end
there, and every proxy is younger than its target, so that no ring goes through targets alone.
Rings through handlers, and through targets and prototypes, are possible.

Commands that keep kinds make no object and revoke no proxy, and they leave nesting limits
alone.
-/

namespace ObjectModel.Heap

/-- Objects to which the command makes a link exist. -/
def Command.NamesObjects (heap : Heap) : Command → Prop
  | allocate _ kind prototype _ =>
      heap.IsPrototype prototype ∧ ∀ id ∈ kind.references, id < heap.objects.size
  | setPrototypeOf _ prototype => heap.IsPrototype prototype
  | _ => True

/-- Any heap that commands make from one store, with links to objects that exist. -/
inductive IsBuilt : Heap → Prop
  | start (config : Config) : IsBuilt (.start config)
  | take {heap : Heap} (built : IsBuilt heap) (command : Command)
      (names : command.NamesObjects heap) : IsBuilt (command.run heap).1

theorem IsBuilt.chained {heap : Heap} (built : heap.IsBuilt) : heap.Chained := by
  induction built with
  | start config => exact chained_start config
  | take built command names inductionHypothesis =>
      refine command.chained inductionHypothesis ?_
      cases command with
      | allocate store kind prototype isLiteral => exact names.1
      | setPrototypeOf id prototype => exact names
      | _ => trivial

/-! ### Kinds -/

/-- No store and no object is made, and no proxy is revoked. -/
def Command.KeepsKinds : Command → Prop
  | addStore _ | allocate _ _ _ _ | describe _ _ | revoke _ => False
  | _ => True

theorem Command.kind_eq {heap : Heap} (wellFormed : heap.WellFormed) {command : Command}
    (keeps : command.KeepsKinds) (id : ObjectId) :
    (command.run heap).1.kind id = heap.kind id := by
  have sameContent : ∀ {after : Heap}, after.SameContent heap → after.kind id = heap.kind id :=
    fun same => same.kind_eq _
  cases command with
  | addStore config => exact keeps.elim
  | allocate store kind prototype isLiteral => exact keeps.elim
  | describe store descriptor => exact keeps.elim
  | revoke proxy => exact keeps.elim
  | setPrototypeOf changed prototype =>
      simp only [run, Heap.setPrototypeOf]
      split
      · rfl
      split
      · rw [kind, object_setPrototype]
        split <;> rfl
      · rfl
  | preventExtensions changed => exact (wellFormed.updates_preventExtensions changed).kind_eq id
  | defineOwn changed key change =>
      obtain ⟨_, updates⟩ := wellFormed.updates_defineOwn changed key change
      exact updates.kind_eq id
  | writeData changed key value =>
      exact (wellFormed.updates_writeData changed key value).kind_eq id
  | deleteOwn changed key =>
      obtain ⟨_, updates, -⟩ := wellFormed.moves_deleteOwn changed key
      exact updates.kind_eq id
  | setIntegrity changed level => exact (wellFormed.updates_setIntegrity changed level).kind_eq id
  | transition store shape step =>
      have objects_eq : (run (.transition store shape step) heap).1.objects = heap.objects :=
        (wellFormed.transition_keeps store shape step).2.2
      rw [kind, object, objects_eq, kind, object]
  | holdAll ids => exact sameContent (sameContent_holdAll heap ids)
  | releaseAll ids => exact sameContent (sameContent_releaseAll heap ids)
  | holdShape shape => exact sameContent (sameContent_holdShape heap shape)
  | releaseShape shape => exact sameContent (sameContent_releaseShape heap shape)

/-- Proxies are younger than their targets. -/
def TargetsFirst (heap : Heap) : Prop :=
  ∀ (proxy : ObjectId) (link : ProxyLink), heap.proxy? proxy = some link → link.target < proxy

theorem TargetsFirst.congr {heap after : Heap} (first : heap.TargetsFirst)
    (kind_eq : ∀ id, after.kind id = heap.kind id) : after.TargetsFirst := by
  intro proxy link isProxy
  rw [proxy?, kind_eq] at isProxy
  exact first proxy link isProxy

theorem TargetsFirst.allocate {heap : Heap} (first : heap.TargetsFirst) (store : StoreId)
    {kind : ObjectKind} (names : ∀ id ∈ kind.references, id < heap.objects.size)
    (prototype : Option ObjectId) (isLiteral : Bool) :
    (heap.allocate store kind prototype isLiteral).1.TargetsFirst := by
  intro proxy link isProxy
  rw [proxy?_eq_some, Heap.kind, object_allocate] at isProxy
  split at isProxy
  · rename_i isNew
    have isLink : kind = .proxy link := isProxy
    subst isLink isNew
    exact names _ List.mem_cons_self
  · exact first proxy link (proxy?_eq_some.mpr isProxy)

theorem TargetsFirst.revoke {heap : Heap} (first : heap.TargetsFirst) (proxy : ObjectId) :
    (heap.revoke proxy).TargetsFirst := by
  unfold Heap.revoke
  cases found : heap.proxy? proxy with
  | none => exact first
  | some link =>
      intro other link' isProxy
      rw [proxy?_eq_some, kind] at isProxy
      rcases heap.changed_or_apart proxy other with ⟨rfl, inRange⟩ | apart
      · rw [object_setObject inRange] at isProxy
        cases isProxy
        exact first other link found
      · rw [object_setObject_other heap _ apart] at isProxy
        exact first other link' (proxy?_eq_some.mpr isProxy)

theorem IsBuilt.targetsFirst {heap : Heap} (built : heap.IsBuilt) : heap.TargetsFirst := by
  induction built with
  | start config =>
      intro proxy link isProxy
      cases isProxy
  | @take heap built command names first =>
      have wellFormed := built.chained.wellFormed
      cases command with
      | addStore config => exact first
      | allocate store kind prototype isLiteral =>
          exact first.allocate store names.2 prototype isLiteral
      | describe store descriptor =>
          have allocated : (heap.allocate store .ordinary none false).1.TargetsFirst :=
            first.allocate store (fun _ member => by cases member) none false
          exact allocated.congr (wellFormed.updates_describe store descriptor).kind_eq
      | revoke proxy => exact first.revoke proxy
      | _ => exact first.congr (Command.kind_eq wellFormed (by trivial))

/-! ### Nesting limits -/

theorem Command.limit_le {heap : Heap} {bound : Nat} (limit_le : ∀ store, heap.limit store ≤ bound)
    {command : Command} (keeps : command.KeepsKinds) (store : StoreId) :
    (command.run heap).1.limit store ≤ bound := by
  have stepped := command.run_withLimits heap heap.limit fun config same => by
    rw [same] at keeps
    exact keeps
  rw [withLimits_limit] at stepped
  have kept := congrArg Prod.fst stepped
  by_cases inRange : store < (command.run heap).1.stores.size
  · rw [kept, limit_withLimits _ _ inRange]
    exact limit_le store
  · -- where there is no store, the limit is that of any configuration
    have outside : (command.run heap).1.limit store = heap.limit heap.stores.size := by
      simp [limit, Heap.store, Nat.le_of_not_lt inRange]
    rw [outside]
    exact limit_le _

theorem exists_limit_le (heap : Heap) : ∃ bound, ∀ store, heap.limit store ≤ bound := by
  refine ⟨(Finset.range (heap.stores.size + 1)).sup heap.limit, fun store => ?_⟩
  by_cases inRange : store < heap.stores.size
  · exact Finset.le_sup (Finset.mem_range.mpr (Nat.lt_succ_of_lt inRange))
  · have outside : heap.limit store = heap.limit heap.stores.size := by
      simp [limit, Heap.store, Nat.le_of_not_lt inRange]
    rw [outside]
    exact Finset.le_sup (Finset.mem_range.mpr (Nat.lt_succ_self _))

end ObjectModel.Heap
