import ObjectModel.Proofs.Shape.Flags

/-!
Contract: what objects rely on when they index their slots by a layout.

Over any list of moves, a layout has one property for each of its keys and numbers them in
creation order, and its ordered flag tells whether that is the order of enumeration. A layout
that was closed stays closed along every path, and a step that settles a layout leads nowhere
from where it led.

Owns: `Layout.Indexed`, which is `Layout.WellFormed` as a user of a layout sees it, and the
steps that need not be taken twice (`Layout.Settles`).

Does not own: the sealed and the frozen flag (`ShapePool.flagsHold`).
-/

namespace ObjectModel

namespace Layout

/-- A key finds its own property and no other, the properties are numbered from zero, and the
ordered flag is set exactly if no key stands behind one that it should precede. -/
structure Indexed (layout : Layout) : Prop where
  keysNodup : layout.keys.Nodup
  find?_iff : ∀ key property, layout.find? key = some property ↔
    property ∈ layout.properties ∧ property.key = key
  slot_eq : ∀ position (inRange : position < layout.properties.length),
    layout.properties[position].slot = position
  slotCount_eq : layout.slotCount = layout.count
  ordered_iff : layout.ordered = true ↔
    layout.keys.Pairwise fun first second => first.order second ≠ .gt

theorem WellFormed.find?_eq_some_iff {layout : Layout} (wellFormed : layout.WellFormed)
    (key : PropertyKey) (property : Property) :
    layout.find? key = some property ↔ property ∈ layout.properties ∧ property.key = key := by
  constructor
  · exact mem_of_find?
  · rintro ⟨member, rfl⟩
    cases search : layout.find? property.key with
    | none => exact absurd (List.mem_map_of_mem member) (find?_eq_none_iff.mp search)
    | some found =>
        obtain ⟨foundMember, sameKey⟩ := mem_of_find? search
        rw [wellFormed.eq_of_key_eq foundMember member sameKey]

theorem WellFormed.indexed {layout : Layout} (wellFormed : layout.WellFormed) :
    layout.Indexed where
  keysNodup := wellFormed.keysNodup
  find?_iff := wellFormed.find?_eq_some_iff
  slot_eq := wellFormed.slot_getElem
  slotCount_eq := wellFormed.slotCount_eq
  ordered_iff := by
    rw [wellFormed.ordered_eq, inEnumerationOrder_iff_pairwise]
    simp [PropertyKey.mayPrecede]

/-- No step makes a layout extensible. -/
theorem extensible_of_after {layout : Layout} {step : Transition}
    (isOpen : (layout.after step).extensible = true) : layout.extensible = true := by
  unfold after at isOpen
  split at isOpen
  · exact isOpen
  · cases step with
    | preventExtensions => contradiction
    | _ => exact isOpen

/-- The step leaves the layout in a state of which it asks no more. A property must be there
to be reconfigured. -/
def Settles (layout : Layout) : Transition → Prop
  | .add _ _ _ | .remove _ => False
  | .reconfigure key _ _ => (layout.find? key).isSome = true
  | .preventExtensions | .seal | .freeze => True

instance (layout : Layout) : (step : Transition) → Decidable (layout.Settles step)
  | .add _ _ _ | .remove _ => .isFalse id
  | .reconfigure key _ _ => instDecidableEqBool (layout.find? key).isSome true
  | .preventExtensions | .seal | .freeze => .isTrue trivial

theorem find?_apply_reconfigure {layout : Layout} {key : PropertyKey} {property : Property}
    (found : layout.find? key = some property) (attributes : Attributes)
    (kind : PropertyKind) :
    (layout.apply (.reconfigure key attributes kind)).find? key =
      some { property with attributes := attributes, kind := kind } := by
  have sameKey := (mem_of_find? found).2
  have sameTest : ((fun other : Property => decide (other.key = key)) ∘
      fun other : Property => if other.key = key then
        { other with attributes := attributes, kind := kind } else other) =
      fun other => decide (other.key = key) := by
    funext other
    simp only [Function.comp]
    split <;> rfl
  rw [find?, apply, List.find?_map, sameTest]
  unfold find? at found
  rw [found, Option.map_some, if_pos sameKey]

/-- A step that settles a layout changes nothing behind itself. -/
theorem isUnchangedBy_after {layout : Layout} {step : Transition}
    (settles : layout.Settles step) : (layout.after step).isUnchangedBy step = true := by
  unfold after
  split
  · rename_i unchanged
    exact unchanged
  · cases step with
    | add | remove => exact settles.elim
    | reconfigure key attributes kind =>
        obtain ⟨property, found⟩ := Option.isSome_iff_exists.mp settles
        rw [isUnchangedBy, find?_apply_reconfigure found]
        simp
    | preventExtensions | «seal» | freeze => rfl

end Layout

namespace ShapePool

variable {pool : ShapePool} {moves : List ShapeMove}

/-- A closed layout leads to closed layouts only, on every path. -/
theorem Canonical.extensible_path (canonical : pool.Canonical) (admits : pool.Admits moves)
    {shape : ShapeId} {visits : List Visit} (path : pool.IsPath moves shape visits)
    {visit : Visit} (member : visit ∈ visits) {later : Nat} (order : visit.moment < later)
    (isOpen : ((pool.atMoment moves later).graph.layout visit.shape).extensible = true) :
    ((pool.atMoment moves later).graph.layout shape).extensible = true := by
  induction path with
  | nil => contradiction
  | @cons shape first rest taken result behind _ inductionHypothesis =>
      have before : first.moment < later := by
        rcases List.mem_cons.mp member with rfl | inRest
        · exact order
        · exact Nat.lt_trans (behind visit inRest) order
      have firstOpen : ((pool.atMoment moves later).graph.layout first.shape).extensible =
          true := by
        rcases List.mem_cons.mp member with rfl | inRest
        · exact isOpen
        · exact inductionHypothesis inRest
      have stays : (pool.atMoment moves later).graph.Extends
          (pool.atMoment moves first.moment).graph :=
        canonical.extends_later (Nat.le_of_lt before)
      rw [← result, canonical.layout_target admits before taken] at firstOpen
      rw [stays.layout_eq shape (admits _ _ taken)]
      exact Layout.extensible_of_after firstOpen

/-- What holds of the layouts along a list of moves. Every one is indexed. Extensibility is
never regained on a path. And a step that settles a layout, taken again at any later time
where it led, leads to the very same shape, for which nothing is made or remembered. -/
structure LayoutsHold (pool : ShapePool) (moves : List ShapeMove) : Prop where
  indexed : ∀ moment shape, shape < (pool.atMoment moves moment).graph.size →
    ((pool.atMoment moves moment).graph.layout shape).Indexed
  closed : ∀ shape visits, pool.IsPath moves shape visits →
    ∀ visit ∈ visits, ∀ later, visit.moment < later →
      ((pool.atMoment moves later).graph.layout shape).extensible = false →
        ((pool.atMoment moves later).graph.layout visit.shape).extensible = false
  settled : ∀ earlier later shape step, moves[earlier]? = some (.take shape step) →
    earlier < later → ((pool.atMoment moves earlier).graph.layout shape).Settles step →
      let target := (pool.atMoment moves earlier).target shape step
      let now := pool.atMoment moves later
      now.store.transition now.graph target step = (now.store, now.graph, target)

/-- The layouts hold over any moves by which properties are added under new keys. -/
theorem layoutsHold (config : Config) (admits : (start config).Admits moves)
    (adds : (start config).AddsNewKeys moves) : (start config).LayoutsHold moves := by
  have canonical := canonical_start config
  refine ⟨?_, ?_, ?_⟩
  · intro moment shape inRange
    refine Layout.WellFormed.indexed ?_
    exact wellFormed_layout config admits adds shape inRange
  · intro shape visits path visit member later order isClosed
    rw [← Bool.not_eq_true] at isClosed ⊢
    exact fun isOpen => isClosed (canonical.extensible_path admits path member order isOpen)
  · intro earlier later shape step taken order settles target now
    have layout_eq : now.graph.layout target = _ := canonical.layout_target admits order taken
    have unchanged : (now.graph.layout target).isUnchangedBy step = true := by
      rw [layout_eq]
      exact Layout.isUnchangedBy_after settles
    rw [ShapeStore.transition, ShapeGraph.next?, if_pos unchanged]

/-- Two properties are added against the order of enumeration, and the object is closed and
one of them made read-only. Taken again, both steps stay where they are. -/
theorem layoutsHold_closed :
    let add := fun index => Transition.add (.ofNat index) .assigned .data
    let readOnly := Transition.reconfigure (.ofNat 0) { Attributes.assigned with writable := false }
      .data
    let moves : List ShapeMove := [.take 0 (add 1), .take 1 (add 0),
      .take 2 .preventExtensions, .take 3 readOnly]
    let pool := (start {}).atMoment moves 4
    (pool.graph.layout 4).keys = [.ofNat 1, .ofNat 0] ∧ (pool.graph.layout 4).ordered = false ∧
      (pool.graph.layout 4).extensible = false ∧
      pool.store.transition pool.graph 3 .preventExtensions = (pool.store, pool.graph, 3) ∧
      pool.store.transition pool.graph 4 readOnly = (pool.store, pool.graph, 4) := by
  intro add readOnly moves pool
  have admits : (start {}).Admits moves := by
    intro moment move found
    match moment with
    | 0 | 1 | 2 | 3 =>
        cases found
        decide
    | moment + 4 => cases found
  have adds : (start {}).AddsNewKeys moves := by
    intro moment shape step found
    match moment with
    | 0 | 1 | 2 | 3 =>
        cases found
        decide
    | moment + 4 => cases found
  have held := layoutsHold {} admits adds
  have path : (start {}).IsPath moves 3 [⟨3, readOnly, 4⟩] :=
    .cons rfl (by decide) (by simp) (.nil 4)
  refine ⟨by decide, ?_, ?_, ?_, ?_⟩
  · rw [← Bool.not_eq_true, (held.indexed 4 4 (by decide)).ordered_iff]
    decide
  · exact held.closed 3 _ path _ List.mem_cons_self 4 (by decide) (by decide)
  · have again := held.settled 2 4 2 .preventExtensions rfl (by decide) (by decide)
    rwa [show ((start {}).atMoment moves 2).target 2 .preventExtensions = 3 by decide] at again
  · have again := held.settled 3 4 3 readOnly rfl (by decide) (by decide)
    rwa [show ((start {}).atMoment moves 3).target 3 readOnly = 4 by decide] at again

end ShapePool

end ObjectModel
