import Mathlib.Algebra.Group.Nat.Defs
import Mathlib.Data.Finset.Card
import Mathlib.Data.Finset.Range
import ObjectModel.Proofs.Shape.Canonical

/-!
Contract: how much a shape remembers.

Edges to shapes out of use are swept from a table only when it is about to outgrow a power of
two. That is often enough: the table outgrows it only if all that it remembers then is in use.
So, whatever happens to the shapes, a table of more than sixteen edges has less than two for
each of the children that were in use at the time when most of them were.

The invariant is `ShapeGraph.Restrained`: every power of two that a table has outgrown is less
than that number of children. One event keeps it, and so do all of them.

Owns: `ShapeEvent`, what happens to the shapes that several stores share.

Does not own: that what is in use is found again (`ShapeGraph.Leads`).
-/

namespace ObjectModel

namespace ShapeGraph

/-! ### Counts of users -/

theorem isInUse_iff_pos {graph : ShapeGraph} {id : ShapeId} :
    graph.isInUse id = true ↔ 0 < graph.userCount id := by
  rw [isInUse, decide_eq_true_eq, Nat.pos_iff_ne_zero]

theorem userCount_modify (graph : ShapeGraph) (id other : ShapeId) (change : Nat → Nat) :
    userCount { graph with users := graph.users.modify id change } other =
      if id = other ∧ other < graph.users.size then change (graph.userCount other)
      else graph.userCount other := by
  simp only [userCount, Array.getD_eq_getD_getElem?, Array.getElem?_modify]
  by_cases same : id = other
  · by_cases inRange : other < graph.users.size <;> simp [same, inRange]
  · simp [same]

private theorem users_size_retainWithin (steps : Nat) (id : ShapeId) (graph : ShapeGraph) :
    (retainWithin steps id graph).users.size = graph.users.size := by
  induction steps generalizing id graph with
  | zero => rfl
  | succ steps inductionHypothesis =>
      rw [retainWithin]
      split
      · rw [inductionHypothesis, Array.size_modify]
      · exact Array.size_modify

@[simp] theorem users_size_retain (graph : ShapeGraph) (id : ShapeId) :
    (graph.retain id).users.size = graph.users.size :=
  users_size_retainWithin _ _ _

private theorem users_size_releaseWithin (steps : Nat) (id : ShapeId) (graph : ShapeGraph) :
    (releaseWithin steps id graph).users.size = graph.users.size := by
  induction steps generalizing id graph with
  | zero => rfl
  | succ steps inductionHypothesis =>
      rw [releaseWithin]
      split
      · rw [inductionHypothesis, Array.size_modify]
      · exact Array.size_modify

@[simp] theorem users_size_release (graph : ShapeGraph) (id : ShapeId) :
    (graph.release id).users.size = graph.users.size :=
  users_size_releaseWithin _ _ _

private theorem userCount_le_retainWithin (steps : Nat) (id : ShapeId) (graph : ShapeGraph)
    (other : ShapeId) :
    graph.userCount other ≤ (retainWithin steps id graph).userCount other := by
  induction steps generalizing id graph with
  | zero => exact Nat.le_refl _
  | succ steps inductionHypothesis =>
      have counted : graph.userCount other ≤
          userCount { graph with users := graph.users.modify id (· + 1) } other := by
        rw [userCount_modify]
        split
        · exact Nat.le_succ _
        · exact Nat.le_refl _
      rw [retainWithin]
      split
      · exact Nat.le_trans counted (inductionHypothesis _ _)
      · exact counted

/-- No shape goes out of use when one is retained. -/
theorem isInUse_retain_of_isInUse {graph : ShapeGraph} {other : ShapeId}
    (inUse : graph.isInUse other = true) (id : ShapeId) :
    (graph.retain id).isInUse other = true := by
  rw [isInUse_iff_pos] at inUse ⊢
  exact Nat.lt_of_lt_of_le inUse (userCount_le_retainWithin _ _ _ _)

theorem isInUse_retain {graph : ShapeGraph} {id : ShapeId} (inRange : id < graph.users.size) :
    (graph.retain id).isInUse id = true := by
  have counted : 0 < userCount { graph with users := graph.users.modify id (· + 1) } id := by
    rw [userCount_modify, if_pos ⟨rfl, inRange⟩]
    exact Nat.succ_pos _
  rw [isInUse_iff_pos, retain, retainWithin]
  split
  · exact Nat.lt_of_lt_of_le counted (userCount_le_retainWithin _ _ _ _)
  · exact counted

/-- A new shape takes no users from the others. -/
theorem isInUse_derive {graph : ShapeGraph} {number : Nat} {id : ShapeId} {step : Transition}
    {old : ShapeId} (inRange : old < graph.users.size) :
    (graph.derive number id step).isInUse old = graph.isInUse old := by
  simp only [isInUse, userCount, derive, Array.getD_eq_getD_getElem?,
    Array.getElem?_push_lt inRange, Array.getElem?_eq_getElem inRange]

/-! ### Tables -/

theorem forgetEdge_sublist (step : Transition) (edges : List (Transition × ShapeId)) :
    (forgetEdge step edges).Sublist edges := by
  rw [forgetEdge_eq_filter]
  exact List.filter_sublist

theorem sweptEdges_sublist (graph : ShapeGraph) (edges : List (Transition × ShapeId)) :
    (graph.sweptEdges edges).Sublist edges := by
  unfold sweptEdges
  split
  · exact List.filter_sublist
  · exact .refl edges

theorem forgetEdge_sweptEdges_sublist (graph : ShapeGraph) (step : Transition)
    (edges : List (Transition × ShapeId)) :
    (forgetEdge step (graph.sweptEdges edges)).Sublist edges :=
  (forgetEdge_sublist step _).trans (graph.sweptEdges_sublist edges)

/-- A table is swept at every power of two from the limit on. -/
theorem sweptEdges_of_full {graph : ShapeGraph} {edges : List (Transition × ShapeId)}
    {power : Nat} (atLimit : sweepLimit ≤ 2 ^ power) (full : edges.length = 2 ^ power) :
    graph.sweptEdges edges = edges.filter fun edge => graph.isInUse edge.2 := by
  rw [sweptEdges, if_pos]
  simp [full, atLimit, Nat.log2_two_pow, Nat.one_shiftLeft]

/-- A new shape is remembered where the step to it starts, and remembers nothing itself. -/
theorem edges_derive (graph : ShapeGraph) (number : Nat) (id : ShapeId) (step : Transition)
    (other : ShapeId) :
    ((graph.derive number id step).shape other).edges =
      if id = other ∧ other < graph.size then
        (step, graph.size) :: forgetEdge step (graph.sweptEdges (graph.shape other).edges)
      else (graph.shape other).edges := by
  have outside : ∀ any : ShapeGraph, any.size ≤ other → (any.shape other).edges = [] := by
    intro any beyond
    rw [shape, Array.getD_eq_getD_getElem?, Array.getElem?_eq_none beyond]
    rfl
  rcases Nat.lt_trichotomy other graph.size with old | new | beyond
  · rw [shape_derive_old graph number id step old]
    by_cases same : id = other
    · subst same
      rw [if_pos rfl, if_pos ⟨rfl, old⟩]
      rfl
    · rw [if_neg same, if_neg fun isSource => same isSource.1]
  · rw [if_neg fun isSource => Nat.ne_of_lt isSource.2 new,
      outside graph (Nat.le_of_eq new.symm), new, shape_derive_new]
  · rw [if_neg fun isSource => Nat.lt_asymm isSource.2 beyond,
      outside graph (Nat.le_of_lt beyond), outside]
    rw [size_derive]
    exact beyond

/-! ### Children in use -/

/-- The children of a shape that it remembers and that are in use. -/
def livingChildren (graph : ShapeGraph) (id : ShapeId) : Finset ShapeId :=
  (Finset.range graph.size).filter fun child =>
    (graph.shape child).parent = some id ∧
      child ∈ (graph.shape id).edges.map Prod.snd ∧ graph.isInUse child = true

/-- Users are counted for every shape, and a shape remembers its own children only, each of
them by one step. -/
structure Accounted (graph : ShapeGraph) : Prop where
  faithful : graph.Faithful
  users_size : graph.users.size = graph.size
  parent_eq : ∀ id, ∀ edge ∈ (graph.shape id).edges, (graph.shape edge.2).parent = some id
  childrenNodup : ∀ id, ((graph.shape id).edges.map Prod.snd).Nodup

/-- So children in use can be counted in the table. -/
theorem Accounted.card_livingChildren {graph : ShapeGraph} (accounted : graph.Accounted)
    (id : ShapeId) :
    (graph.livingChildren id).card =
      (graph.shape id).edges.countP fun edge => graph.isInUse edge.2 := by
  have children : graph.livingChildren id =
      (((graph.shape id).edges.filter fun edge => graph.isInUse edge.2).map
        Prod.snd).toFinset := by
    ext child
    simp only [livingChildren, Finset.mem_filter, Finset.mem_range, List.mem_toFinset,
      List.mem_map, List.mem_filter]
    constructor
    · rintro ⟨-, -, ⟨edge, member, rfl⟩, inUse⟩
      exact ⟨edge, ⟨member, inUse⟩, rfl⟩
    · rintro ⟨edge, ⟨member, inUse⟩, rfl⟩
      exact ⟨accounted.faithful.edge_lt id edge member, accounted.parent_eq id edge member,
        ⟨edge, member, rfl⟩, inUse⟩
  rw [children, List.toFinset_card_of_nodup, List.length_map, List.countP_eq_length_filter]
  exact (List.filter_sublist.map Prod.snd).nodup (accounted.childrenNodup id)

theorem accounted_empty : ({} : ShapeGraph).Accounted where
  faithful := faithful_empty
  users_size := rfl
  parent_eq := by
    intro id edge member
    simp [shape, default, instInhabitedShape.default] at member
  childrenNodup := by
    intro id
    simp [shape, default, instInhabitedShape.default]

theorem Accounted.congr {left right : ShapeGraph} (accounted : left.Accounted)
    (same : right.shapes = left.shapes) (sameCount : right.users.size = left.users.size) :
    right.Accounted where
  faithful := accounted.faithful.congr same
  users_size := by rw [sameCount, accounted.users_size, size_congr same]
  parent_eq := by
    intro id edge member
    rw [shape_congr same] at member ⊢
    exact accounted.parent_eq id edge member
  childrenNodup := by
    intro id
    rw [shape_congr same]
    exact accounted.childrenNodup id

theorem Accounted.derive {graph : ShapeGraph} (accounted : graph.Accounted) (number : Nat)
    (source : ShapeId) (step : Transition) :
    (graph.derive number source step).Accounted where
  faithful := accounted.faithful.derive number source step
  users_size := by
    rw [size_derive, ← accounted.users_size]
    exact Array.size_push _
  parent_eq := by
    have kept : ∀ id, ∀ edge ∈ (graph.shape id).edges,
        ((graph.derive number source step).shape edge.2).parent = some id := by
      intro id edge member
      have target := accounted.faithful.edge_lt id edge member
      rw [shape_derive_old graph number source step target]
      split
      · rename_i same
        rw [same]
        exact accounted.parent_eq id edge member
      · exact accounted.parent_eq id edge member
    intro id edge member
    rw [edges_derive] at member
    split at member
    · rename_i isSource
      rcases List.mem_cons.mp member with rfl | old
      · rw [shape_derive_new, isSource.1]
      · exact kept id edge ((graph.forgetEdge_sweptEdges_sublist step _).subset old)
    · exact kept id edge member
  childrenNodup := by
    intro id
    rw [edges_derive]
    split
    · have fewer := (graph.forgetEdge_sweptEdges_sublist step (graph.shape id).edges).map Prod.snd
      rw [List.map_cons, List.nodup_cons]
      refine ⟨?_, fewer.nodup (accounted.childrenNodup id)⟩
      intro again
      obtain ⟨edge, member, isNew⟩ := List.mem_map.mp (fewer.subset again)
      exact Nat.ne_of_lt (accounted.faithful.edge_lt id edge member) isNew
    · exact accounted.childrenNodup id

theorem Accounted.addRoot {graph : ShapeGraph} (accounted : graph.Accounted) :
    graph.addRoot.1.Accounted where
  faithful := accounted.faithful.addRoot
  users_size := by
    rw [size_addRoot, ← accounted.users_size]
    exact Array.size_push _
  parent_eq := by
    intro id edge member
    rw [shape_addRoot] at member
    split at member
    · contradiction
    · have target := accounted.faithful.edge_lt id edge member
      rw [shape_addRoot, if_neg (Nat.ne_of_lt target)]
      exact accounted.parent_eq id edge member
  childrenNodup := by
    intro id
    rw [shape_addRoot]
    split
    · exact List.nodup_nil
    · exact accounted.childrenNodup id

/-! ### Restraint -/

/-- Every power of two that the table of a shape has outgrown, from the limit on, is less than
`most`. -/
def Restrained (graph : ShapeGraph) (id : ShapeId) (most : Nat) : Prop :=
  ∀ power, sweepLimit ≤ 2 ^ power → 2 ^ power < (graph.shape id).edges.length → 2 ^ power < most

/-- The last power of two below a number is at least half as large. -/
private theorem exists_last_power {count : Nat} (long : 1 < count) :
    ∃ power, 2 ^ power < count ∧ count ≤ 2 * 2 ^ power := by
  have notZero : count - 1 ≠ 0 := by omega
  have lower := Nat.log2_self_le notZero
  have upper := Nat.lt_log2_self (n := count - 1)
  rw [Nat.pow_succ] at upper
  exact ⟨(count - 1).log2, by omega, by omega⟩

theorem Restrained.length_le {graph : ShapeGraph} {id : ShapeId} {most : Nat}
    (restrained : graph.Restrained id most) :
    (graph.shape id).edges.length ≤ max sweepLimit (2 * (most - 1)) := by
  have limit : sweepLimit = 2 ^ 4 := rfl
  rcases Nat.lt_or_ge sweepLimit (graph.shape id).edges.length with long | short
  · obtain ⟨power, outgrown, half⟩ := exists_last_power (Nat.lt_trans (by decide) long)
    have exponent : 3 < power := by
      rw [limit] at long
      refine (Nat.pow_lt_pow_iff_right (a := 2) (by decide)).mp ?_
      omega
    have atLimit : sweepLimit ≤ 2 ^ power :=
      limit ▸ Nat.pow_le_pow_right Nat.zero_lt_two exponent
    have below := restrained power atLimit outgrown
    omega
  · exact Nat.le_trans short (Nat.le_max_left _ _)

theorem restrained_empty (id : ShapeId) : ({} : ShapeGraph).Restrained id 0 := by
  intro power _ outgrown
  simp [shape, default, instInhabitedShape.default] at outgrown

/-- Restraint is about the table alone, and more children restrain it less. -/
theorem Restrained.mono {before after : ShapeGraph} {id : ShapeId} {fewer more : Nat}
    (restrained : before.Restrained id fewer)
    (same : (after.shape id).edges = (before.shape id).edges) (le : fewer ≤ more) :
    after.Restrained id more := by
  intro power atLimit outgrown
  rw [same] at outgrown
  exact Nat.lt_of_lt_of_le (restrained power atLimit outgrown) le

theorem Restrained.addRoot {graph : ShapeGraph} {id : ShapeId} {most : Nat}
    (restrained : graph.Restrained id most) : graph.addRoot.1.Restrained id most := by
  intro power atLimit outgrown
  rw [shape_addRoot] at outgrown
  split at outgrown
  · contradiction
  · exact restrained power atLimit outgrown

section Derive

variable {graph : ShapeGraph} (accounted : graph.Accounted) (number : Nat) (id : ShapeId)
  (step : Transition)

include accounted

/-- A step that makes a shape where the table is full leaves only children in use in it. -/
theorem Accounted.isInUse_of_full (inRange : id < graph.size) {power : Nat}
    (atLimit : sweepLimit ≤ 2 ^ power) (full : (graph.shape id).edges.length = 2 ^ power) :
    let after := (graph.derive number id step).retain graph.size
    ∀ edge ∈ (after.shape id).edges, after.isInUse edge.2 = true := by
  intro after edge member
  rw [shape_congr (shapes_retain _ _), edges_derive, if_pos ⟨rfl, inRange⟩,
    sweptEdges_of_full atLimit full] at member
  rcases List.mem_cons.mp member with rfl | old
  · apply isInUse_retain
    rw [(accounted.derive number id step).users_size, size_derive]
    exact Nat.lt_succ_self _
  · obtain ⟨kept, inUse⟩ := List.mem_filter.mp ((forgetEdge_sublist step _).subset old)
    have counted : edge.2 < graph.users.size := by
      rw [accounted.users_size]
      exact accounted.faithful.edge_lt id edge kept
    apply isInUse_retain_of_isInUse
    rwa [isInUse_derive counted]

theorem Restrained.derive {other : ShapeId} {most : Nat}
    (restrained : graph.Restrained other most) :
    let after := (graph.derive number id step).retain graph.size
    after.Restrained other (max most (after.livingChildren other).card) := by
  intro after power atLimit outgrown
  have edges_eq : (after.shape other).edges = _ :=
    (congrArg Shape.edges (shape_congr (shapes_retain _ _) other)).trans
      (edges_derive graph number id step other)
  by_cases isSource : id = other ∧ other < graph.size
  · obtain ⟨rfl, inRange⟩ := isSource
    -- a table has outgrown this power before, or does so now and was swept at it
    by_cases full : (graph.shape id).edges.length = 2 ^ power
    · have accountedAfter : after.Accounted := (accounted.derive number id step).congr
        (shapes_retain _ _) (users_size_retain _ _)
      have living : (after.livingChildren id).card = (after.shape id).edges.length := by
        rw [accountedAfter.card_livingChildren]
        exact List.countP_eq_length.mpr
          (accounted.isInUse_of_full number id step inRange atLimit full)
      rw [← living] at outgrown
      exact Nat.lt_of_lt_of_le outgrown (Nat.le_max_right _ _)
    · have fewer := (graph.forgetEdge_sweptEdges_sublist step (graph.shape id).edges).length_le
      rw [edges_eq, if_pos ⟨rfl, inRange⟩, List.length_cons] at outgrown
      have outgrownBefore : 2 ^ power < (graph.shape id).edges.length := by omega
      exact Nat.lt_of_lt_of_le (restrained power atLimit outgrownBefore) (Nat.le_max_left _ _)
  · rw [if_neg isSource] at edges_eq
    exact restrained.mono edges_eq (Nat.le_max_left _ _) power atLimit outgrown

end Derive

end ShapeGraph

/-! ### Events -/

/-- One thing that happens to the shapes of several stores. -/
inductive ShapeEvent where
  /-- A store is made, with a root shape of its own. -/
  | addStore
  /-- A move at any shape. A shape that it makes has its number from this store. -/
  | inStore (store : ShapeStore) (move : ShapeMove)

namespace ShapeEvent

def run (graph : ShapeGraph) : ShapeEvent → ShapeGraph
  | addStore => graph.addRoot.1
  | inStore store move => (move.run ⟨store, graph⟩).graph

/-- An event makes a root, or a shape for a step, or it changes nothing but counts of users. -/
theorem run_cases (graph : ShapeGraph) (event : ShapeEvent) :
    event.run graph = graph.addRoot.1 ∨
      (∃ number source step,
        event.run graph = (graph.derive number source step).retain graph.size) ∨
      ((event.run graph).shapes = graph.shapes ∧
        (event.run graph).users.size = graph.users.size) := by
  cases event with
  | addStore => exact .inl rfl
  | inStore store move =>
      refine .inr ?_
      cases move with
      | take source step =>
          simp only [run, ShapeMove.run, ShapeStore.transition]
          split
          · exact .inr ⟨ShapeGraph.shapes_retain _ _, ShapeGraph.users_size_retain _ _⟩
          · exact .inl ⟨store.created, source, step, rfl⟩
      | retain shape =>
          exact .inr ⟨ShapeGraph.shapes_retain _ _, ShapeGraph.users_size_retain _ _⟩
      | release shape =>
          exact .inr ⟨ShapeGraph.shapes_release _ _, ShapeGraph.users_size_release _ _⟩

end ShapeEvent

namespace ShapeGraph

/-- The shapes after some events, one behind the other. -/
def runAll (graph : ShapeGraph) (events : List ShapeEvent) : ShapeGraph :=
  events.foldl ShapeEvent.run graph

/-- The largest number of children of a shape that it remembered and that were in use at the
same time, before the events or behind any of them. -/
def peak (id : ShapeId) : ShapeGraph → List ShapeEvent → Nat
  | graph, [] => (graph.livingChildren id).card
  | graph, event :: rest => max (graph.livingChildren id).card (peak id (event.run graph) rest)

theorem card_livingChildren_le_peak (id : ShapeId) (graph : ShapeGraph)
    (events : List ShapeEvent) : (graph.livingChildren id).card ≤ peak id graph events := by
  cases events with
  | nil => exact Nat.le_refl _
  | cons event rest => exact Nat.le_max_left _ _

variable {graph : ShapeGraph}

theorem Accounted.run (accounted : graph.Accounted) (event : ShapeEvent) :
    (event.run graph).Accounted := by
  rcases event.run_cases graph with made | ⟨number, source, step, made⟩ | ⟨same, sameCount⟩
  · rw [made]
    exact accounted.addRoot
  · rw [made]
    exact (accounted.derive number source step).congr (shapes_retain _ _) (users_size_retain _ _)
  · exact accounted.congr same sameCount

theorem Restrained.run (accounted : graph.Accounted) {id : ShapeId} {most : Nat}
    (restrained : graph.Restrained id most) (event : ShapeEvent) :
    (event.run graph).Restrained id
      (max most ((event.run graph).livingChildren id).card) := by
  rcases event.run_cases graph with made | ⟨number, source, step, made⟩ | ⟨same, -⟩
  · rw [made]
    exact restrained.addRoot.mono rfl (Nat.le_max_left _ _)
  · rw [made]
    exact restrained.derive accounted number source step
  · exact restrained.mono (congrArg Shape.edges (shape_congr same id)) (Nat.le_max_left _ _)

theorem Restrained.runAll (accounted : graph.Accounted) {id : ShapeId} {most : Nat}
    (restrained : graph.Restrained id most) (events : List ShapeEvent) :
    (graph.runAll events).Restrained id (max most (peak id graph events)) := by
  induction events generalizing graph most with
  | nil => exact restrained.mono rfl (Nat.le_max_left _ _)
  | cons event rest inductionHypothesis =>
      have later := inductionHypothesis (accounted.run event) (restrained.run accounted event)
      have counted := card_livingChildren_le_peak id (event.run graph) rest
      refine later.mono rfl ?_
      rw [peak]
      omega

/-- Whatever has happened to the shapes of some stores, a shape has at most sixteen edges, or
less than two for each of the children that were in use at the time when most of them were. -/
theorem length_edges_le_peak (events : List ShapeEvent) (id : ShapeId) :
    ((runAll {} events).shape id).edges.length ≤ max 16 (2 * peak id {} events - 1) := by
  have bound := ((restrained_empty id).runAll accounted_empty events).length_le
  have limit : sweepLimit = 16 := rfl
  omega

/-- Of children that come and go one behind the other, sixteen are remembered, and then the
next one alone. -/
example :
    let comeAndGo := fun count => ShapeEvent.addStore :: (List.range count).flatMap fun index =>
      [.inStore default (.take 0 (.add (.ofNat index) .assigned .data)),
        .inStore default (.release (index + 1))]
    ((runAll {} (comeAndGo 16)).shape 0).edges.length = 16 ∧
      ((runAll {} (comeAndGo 17)).shape 0).edges.length = 1 ∧ peak 0 {} (comeAndGo 17) = 1 := by
  decide +kernel

end ShapeGraph

end ObjectModel
