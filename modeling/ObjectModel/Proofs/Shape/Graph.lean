import ObjectModel.Proofs.Shape.Layout
import ObjectModel.Shape.Store

/-!
Contract: what remembered steps are worth.

A graph is faithful if every remembered step leads to the layout that the step
computes. New shapes keep a graph faithful, and no shape that exists ever changes its
layout. So a step leads to the same layout whether its target was remembered or made.

Users of shapes are counted beside the shapes. They decide which targets are found
again, never what a layout is.
-/

namespace ObjectModel

namespace ShapeGraph

/-- Every remembered step leads to a shape with the layout after the step. -/
structure Faithful (graph : ShapeGraph) : Prop where
  edge_lt : ∀ id, ∀ edge ∈ (graph.shape id).edges, edge.2 < graph.size
  edge_layout : ∀ id, ∀ edge ∈ (graph.shape id).edges,
    graph.layout edge.2 = (graph.layout id).apply edge.1

/-- All shapes of one graph are in another, with their layouts. -/
structure Extends (after before : ShapeGraph) : Prop where
  size_le : before.size ≤ after.size
  layout_eq : ∀ id, id < before.size → after.layout id = before.layout id

theorem Extends.refl (graph : ShapeGraph) : graph.Extends graph where
  size_le := Nat.le_refl _
  layout_eq := fun _ _ => rfl

theorem Extends.trans {first second third : ShapeGraph} (later : third.Extends second)
    (earlier : second.Extends first) : third.Extends first where
  size_le := Nat.le_trans earlier.size_le later.size_le
  layout_eq := fun id inRange => by
    rw [later.layout_eq id (Nat.lt_of_lt_of_le inRange earlier.size_le),
      earlier.layout_eq id inRange]

theorem faithful_empty : ({} : ShapeGraph).Faithful where
  edge_lt := by
    intro id edge member
    simp [shape, default, instInhabitedShape.default] at member
  edge_layout := by
    intro id edge member
    simp [shape, default, instInhabitedShape.default] at member

/-! ### Counts of users -/

theorem shape_congr {left right : ShapeGraph} (same : left.shapes = right.shapes)
    (id : ShapeId) : left.shape id = right.shape id := by
  rw [shape, shape, same]

theorem layout_congr {left right : ShapeGraph} (same : left.shapes = right.shapes)
    (id : ShapeId) : left.layout id = right.layout id := by
  rw [layout, layout, shape_congr same]

theorem size_congr {left right : ShapeGraph} (same : left.shapes = right.shapes) :
    left.size = right.size := by
  rw [size, size, same]

theorem Faithful.congr {left right : ShapeGraph} (faithful : left.Faithful)
    (same : right.shapes = left.shapes) : right.Faithful where
  edge_lt := by
    intro id edge member
    rw [shape_congr same] at member
    rw [size_congr same]
    exact faithful.edge_lt id edge member
  edge_layout := by
    intro id edge member
    rw [shape_congr same] at member
    rw [layout_congr same, layout_congr same]
    exact faithful.edge_layout id edge member

theorem Extends.of_shapes_eq {after before : ShapeGraph}
    (same : after.shapes = before.shapes) : after.Extends before where
  size_le := Nat.le_of_eq (size_congr same).symm
  layout_eq := fun id _ => layout_congr same id

private theorem shapes_retainWithin (steps : Nat) (id : ShapeId) (graph : ShapeGraph) :
    (retainWithin steps id graph).shapes = graph.shapes := by
  induction steps generalizing id graph with
  | zero => rfl
  | succ steps inductionHypothesis =>
      rw [retainWithin]
      split
      · rw [inductionHypothesis]
      · rfl

@[simp] theorem shapes_retain (graph : ShapeGraph) (id : ShapeId) :
    (graph.retain id).shapes = graph.shapes :=
  shapes_retainWithin _ _ _

private theorem shapes_releaseWithin (steps : Nat) (id : ShapeId) (graph : ShapeGraph) :
    (releaseWithin steps id graph).shapes = graph.shapes := by
  induction steps generalizing id graph with
  | zero => rfl
  | succ steps inductionHypothesis =>
      rw [releaseWithin]
      split
      · rw [inductionHypothesis]
      · rfl

@[simp] theorem shapes_release (graph : ShapeGraph) (id : ShapeId) :
    (graph.release id).shapes = graph.shapes :=
  shapes_releaseWithin _ _ _

/-! ### New shapes -/

theorem size_derive (graph : ShapeGraph) (number : Nat) (id : ShapeId)
    (step : Transition) : (graph.derive number id step).size = graph.size + 1 := by
  simp [derive, size]

theorem shape_derive_old (graph : ShapeGraph) (number : Nat) (id : ShapeId)
    (step : Transition) {old : ShapeId} (inRange : old < graph.size) :
    (graph.derive number id step).shape old =
      if id = old then
        { graph.shape id with
          edges := rememberEdge step graph.size
            (graph.sweptEdges (graph.shape id).edges) }
      else graph.shape old := by
  have bound : old < graph.shapes.size := inRange
  simp only [derive, shape, Array.getD_eq_getD_getElem?]
  rw [Array.getElem?_push_lt (by simpa using bound), Option.getD_some,
    Array.getElem_modify]
  split
  · rename_i same
    subst same
    simp [bound]
  · simp [bound]

theorem shape_derive_new (graph : ShapeGraph) (number : Nat) (id : ShapeId)
    (step : Transition) :
    (graph.derive number id step).shape graph.size =
      { number := number, parent := some id, layout := (graph.layout id).apply step } := by
  simp only [derive, shape, size, Array.getD_eq_getD_getElem?]
  rw [Array.getElem?_push, if_pos (by simp)]
  rfl

theorem layout_derive_new (graph : ShapeGraph) (number : Nat) (id : ShapeId)
    (step : Transition) :
    (graph.derive number id step).layout graph.size = (graph.layout id).apply step := by
  rw [layout, shape_derive_new]

theorem extends_derive (graph : ShapeGraph) (number : Nat) (id : ShapeId)
    (step : Transition) : (graph.derive number id step).Extends graph where
  size_le := by
    rw [size_derive]
    exact Nat.le_succ _
  layout_eq := by
    intro old inRange
    rw [layout, shape_derive_old graph number id step inRange]
    split
    · rename_i same
      subst same
      rfl
    · rfl

private theorem mem_sweptEdges {graph : ShapeGraph} {edges : List (Transition × ShapeId)}
    {edge : Transition × ShapeId} (member : edge ∈ graph.sweptEdges edges) :
    edge ∈ edges := by
  unfold sweptEdges at member
  split at member
  · exact (List.mem_filter.mp member).1
  · exact member

/-- A step that is remembered anew leads to the shape made for it. -/
theorem Faithful.derive {graph : ShapeGraph} (faithful : graph.Faithful) (number : Nat)
    (id : ShapeId) (step : Transition) :
    (graph.derive number id step).Faithful := by
  have grown := extends_derive graph number id step
  have oldEdge : ∀ old, old < graph.size → ∀ edge ∈ (graph.shape old).edges,
      edge.2 < (graph.derive number id step).size ∧
        (graph.derive number id step).layout edge.2 =
          ((graph.derive number id step).layout old).apply edge.1 := by
    intro old oldRange edge member
    have target := faithful.edge_lt old edge member
    refine ⟨Nat.lt_of_lt_of_le target grown.size_le, ?_⟩
    rw [grown.layout_eq _ target, grown.layout_eq _ oldRange,
      faithful.edge_layout old edge member]
  have edges : ∀ source, ∀ edge ∈ ((graph.derive number id step).shape source).edges,
      edge.2 < (graph.derive number id step).size ∧
        (graph.derive number id step).layout edge.2 =
          ((graph.derive number id step).layout source).apply edge.1 := by
    intro source edge member
    rcases Nat.lt_trichotomy source graph.size with old | new | outside
    · rw [shape_derive_old graph number id step old] at member
      split at member
      · rename_i same
        subst same
        rw [rememberEdge, forgetEdge_eq_filter, List.mem_cons] at member
        rcases member with isNew | isOld
        · subst isNew
          refine ⟨by rw [size_derive]; exact Nat.lt_succ_self _, ?_⟩
          rw [layout_derive_new, grown.layout_eq _ old]
        · exact oldEdge id old edge (mem_sweptEdges (List.mem_filter.mp isOld).1)
      · exact oldEdge source old edge member
    · subst new
      rw [shape_derive_new] at member
      contradiction
    · have absent : (graph.derive number id step).shape source = default := by
        rw [shape, Array.getD_eq_getD_getElem?, Array.getElem?_eq_none]
        · rfl
        · have bound := size_derive graph number id step
          rw [size] at bound
          omega
      rw [absent] at member
      contradiction
  exact ⟨fun source edge member => (edges source edge member).1,
    fun source edge member => (edges source edge member).2⟩

theorem size_addRoot (graph : ShapeGraph) : graph.addRoot.1.size = graph.size + 1 := by
  simp [addRoot, size]

theorem shape_addRoot (graph : ShapeGraph) (id : ShapeId) :
    graph.addRoot.1.shape id = if id = graph.size then {} else graph.shape id := by
  simp only [addRoot, shape, size, Array.getD_eq_getD_getElem?, Array.getElem?_push]
  split <;> rfl

theorem layout_addRoot_new (graph : ShapeGraph) :
    graph.addRoot.1.layout graph.addRoot.2 = .empty := by
  have made : graph.addRoot.2 = graph.size := rfl
  rw [layout, shape_addRoot, if_pos made]

theorem extends_addRoot (graph : ShapeGraph) : graph.addRoot.1.Extends graph where
  size_le := by
    rw [size_addRoot]
    exact Nat.le_succ _
  layout_eq := by
    intro id inRange
    rw [layout, shape_addRoot, if_neg (Nat.ne_of_lt inRange), layout]

theorem Faithful.addRoot {graph : ShapeGraph} (faithful : graph.Faithful) :
    graph.addRoot.1.Faithful := by
  have edges : ∀ source, ∀ edge ∈ (graph.addRoot.1.shape source).edges,
      edge ∈ (graph.shape source).edges ∧ source < graph.size := by
    intro source edge member
    rw [shape_addRoot] at member
    split at member
    · contradiction
    · refine ⟨member, ?_⟩
      apply Decidable.byContradiction
      intro outside
      have absent : graph.shape source = default := by
        rw [shape, Array.getD_eq_getD_getElem?, Array.getElem?_eq_none
          (Nat.le_of_not_lt outside)]
        rfl
      rw [absent] at member
      contradiction
  have grown := extends_addRoot graph
  refine ⟨?_, ?_⟩
  · intro source edge member
    exact Nat.lt_of_lt_of_le (faithful.edge_lt source edge (edges source edge member).1)
      grown.size_le
  · intro source edge member
    obtain ⟨old, inRange⟩ := edges source edge member
    rw [grown.layout_eq _ (faithful.edge_lt source edge old),
      grown.layout_eq _ inRange, faithful.edge_layout source edge old]

end ShapeGraph

/-! ### Steps taken by a store -/

namespace ShapeStore

variable (store : ShapeStore) {graph : ShapeGraph} (faithful : graph.Faithful)
  (id : ShapeId) (step : Transition)

include faithful

/-- A step keeps the graph faithful and every layout. -/
theorem transition_keeps :
    (store.transition graph id step).2.1.Faithful ∧
      (store.transition graph id step).2.1.Extends graph := by
  unfold transition
  split
  · exact ⟨faithful, .refl graph⟩
  · exact ⟨faithful.derive store.created id step,
      ShapeGraph.extends_derive graph store.created id step⟩

/-- A step ends at a shape with the layout after the step, whether that shape was
remembered or made. -/
theorem transition_target (inRange : id < graph.size) :
    (store.transition graph id step).2.2 < (store.transition graph id step).2.1.size ∧
      (store.transition graph id step).2.1.layout (store.transition graph id step).2.2 =
        (graph.layout id).after step := by
  unfold transition
  cases search : graph.next? id step with
  | some target =>
      unfold ShapeGraph.next? at search
      split at search
      · rename_i unchanged
        cases search
        exact ⟨inRange, by rw [Layout.after, if_pos unchanged]⟩
      · rename_i changed
        obtain ⟨edge, found, alive⟩ := Option.bind_eq_some_iff.mp search
        split at alive
        · cases alive
          have member := List.mem_of_find?_eq_some found
          have sameStep : edge.1 = step := by simpa using List.find?_some found
          refine ⟨faithful.edge_lt id edge member, ?_⟩
          rw [faithful.edge_layout id edge member, Layout.after, if_neg changed, sameStep]
        · contradiction
  | none =>
      refine ⟨?_, ?_⟩
      · rw [ShapeGraph.size_derive]
        exact Nat.lt_succ_self _
      · rw [ShapeGraph.layout_derive_new]
        unfold ShapeGraph.next? at search
        split at search
        · contradiction
        · rename_i changed
          rw [Layout.after, if_neg changed]

omit faithful in
/-- A store keeps its root and its configuration. -/
theorem transition_store (graph : ShapeGraph) :
    (store.transition graph id step).1.root = store.root ∧
      (store.transition graph id step).1.config = store.config := by
  unfold transition
  split <;> exact ⟨rfl, rfl⟩

end ShapeStore

end ObjectModel
