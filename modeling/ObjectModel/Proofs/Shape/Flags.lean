import ObjectModel.Proofs.Shape.Canonical

/-!
Contract: what the flags of a layout promise.

Over any list of moves, a layout with a sealed flag has fixed properties only, and one with a
frozen flag has a sealed flag as well. A frozen flag does not always promise that the data
properties are read-only: a step that changes one property of a sealed layout sets it as if
that property were the only one. `Layout.FreezesEarly` tells the steps after which the flag is
wrong, and without such a step it never is.
-/

namespace ObjectModel

namespace Layout

/-- The frozen flag is right about the data properties. -/
def FrozenHolds (layout : Layout) : Prop :=
  layout.frozen = true → ∀ property ∈ layout.properties, property.kind = .data →
    property.attributes.writable = false

/-- The step sets the frozen flag too early. It changes a property of a sealed layout, which
is an accessor or read-only then, while another property is writable still. -/
def FreezesEarly (layout : Layout) : Transition → Prop
  | .reconfigure key attributes kind =>
      layout.isUnchangedBy (.reconfigure key attributes kind) = false ∧
        layout.sealed = true ∧ attributes.configurable = false ∧
        (kind = .accessor ∨ attributes.writable = false) ∧
        ∃ other ∈ layout.properties,
          other.key ≠ key ∧ other.kind = .data ∧ other.attributes.writable = true
  | _ => False

theorem frozenHolds_empty : empty.FrozenHolds := by
  intro isFrozen
  contradiction

/-- A step that edits the properties and leaves the flag alone, as long as it makes nothing
writable. -/
private theorem FrozenHolds.mono {layout result : Layout} (holds : layout.FrozenHolds)
    (frozen_eq : result.frozen = layout.frozen)
    (kept : ∀ property ∈ result.properties, ∃ old ∈ layout.properties,
      property.kind = old.kind ∧ property.attributes.writable = old.attributes.writable) :
    result.FrozenHolds := by
  intro isFrozen property member isData
  obtain ⟨old, oldMember, kind_eq, writable_eq⟩ := kept property member
  rw [writable_eq]
  exact holds (frozen_eq ▸ isFrozen) old oldMember (kind_eq ▸ isData)

theorem FrozenHolds.apply {layout : Layout} (holds : layout.FrozenHolds) {step : Transition}
    (changes : layout.isUnchangedBy step = false) (timely : ¬layout.FreezesEarly step) :
    (layout.apply step).FrozenHolds := by
  cases step with
  | add key attributes kind =>
      intro isFrozen
      contradiction
  | remove key =>
      refine holds.mono ?_ ?_
      · rfl
      intro property member
      obtain ⟨position, inRange, rfl⟩ := List.mem_mapIdx.mp member
      exact ⟨_, (List.mem_filter.mp (List.getElem_mem inRange)).1, rfl, rfl⟩
  | reconfigure key attributes kind =>
      intro isFrozen property member isData
      obtain ⟨old, oldMember, rfl⟩ := List.mem_map.mp member
      simp only [Layout.apply, Bool.and_eq_true, Bool.or_eq_true, Bool.not_eq_true',
        decide_eq_true_eq] at isFrozen
      obtain ⟨⟨isSealed, fixed⟩, closed⟩ := isFrozen
      by_cases sameKey : old.key = key
      · rw [if_pos sameKey] at isData ⊢
        exact closed.resolve_left fun isAccessor => by
          rw [show kind = .data from isData] at isAccessor
          contradiction
      · rw [if_neg sameKey] at isData ⊢
        rw [← Bool.not_eq_true]
        intro writable
        exact timely ⟨changes, isSealed, fixed, closed, old, oldMember, sameKey, isData, writable⟩
  | preventExtensions => exact holds
  | «seal» =>
      refine holds.mono ?_ ?_
      · rfl
      intro property member
      obtain ⟨old, oldMember, rfl⟩ := List.mem_map.mp member
      exact ⟨old, oldMember, rfl, rfl⟩
  | freeze =>
      intro _ property member isData
      obtain ⟨old, oldMember, rfl⟩ := List.mem_map.mp member
      have wasData : old.kind = .data := isData
      simp [wasData, Attributes.protect, Attributes.frozen]

/-- An early step does leave a wrong flag. -/
theorem FreezesEarly.wrong {layout : Layout} {step : Transition}
    (early : layout.FreezesEarly step) :
    (layout.after step).frozen = true ∧ ∃ property ∈ (layout.after step).properties,
      property.kind = .data ∧ property.attributes.writable = true := by
  cases step with
  | reconfigure key attributes kind =>
      obtain ⟨changes, isSealed, fixed, closed, other, member, different, isData, writable⟩ :=
        early
      rw [after, changes, if_neg Bool.false_ne_true]
      refine ⟨?_, other, ?_, isData, writable⟩
      · simp [Layout.apply, isSealed, fixed, closed]
      · exact List.mem_map.mpr ⟨other, member, if_neg different⟩
  | _ => exact early.elim

/-- The flag stays right exactly if the step is not early. -/
theorem FrozenHolds.after_iff {layout : Layout} (holds : layout.FrozenHolds)
    (step : Transition) : (layout.after step).FrozenHolds ↔ ¬layout.FreezesEarly step := by
  constructor
  · intro stillHolds early
    obtain ⟨isFrozen, property, member, isData, writable⟩ := early.wrong
    rw [stillHolds isFrozen property member isData] at writable
    contradiction
  · intro timely
    unfold after
    split
    · exact holds
    · rename_i changes
      exact holds.apply (Bool.not_eq_true _ ▸ changes) timely

end Layout

/-! ### Runs of moves -/

namespace ShapePool

variable {pool : ShapePool} {moves : List ShapeMove}

/-- The layouts after a move are those before it, and the one that a step leads to. -/
theorem layout_run {move : ShapeMove} {shape : ShapeId}
    (inRange : shape < (move.run pool).graph.size) :
    (shape < pool.graph.size ∧ (move.run pool).graph.layout shape = pool.graph.layout shape) ∨
      ∃ source step, move = .take source step ∧
        (move.run pool).graph.layout shape = (pool.graph.layout source).after step := by
  cases move with
  | take source step =>
      have same := shapes_take pool source step
      rw [ShapeGraph.size_congr same] at inRange
      rw [ShapeGraph.layout_congr same]
      unfold ShapeStore.transition at inRange ⊢
      cases found : pool.graph.next? source step with
      | some target =>
          rw [found] at inRange
          exact .inl ⟨inRange, rfl⟩
      | none =>
          rw [found, ShapeGraph.size_derive] at inRange
          rcases Nat.lt_succ_iff_lt_or_eq.mp inRange with old | isNew
          · exact .inl ⟨old,
              (ShapeGraph.extends_derive pool.graph _ source step).layout_eq shape old⟩
          · refine .inr ⟨source, step, rfl, ?_⟩
            subst isNew
            have changes : ¬(pool.graph.layout source).isUnchangedBy step = true := by
              intro unchanged
              unfold ShapeGraph.next? at found
              rw [if_pos unchanged] at found
              contradiction
            rw [Layout.after, if_neg changes]
            exact ShapeGraph.layout_derive_new pool.graph _ source step
  | retain other =>
      have same := ShapeGraph.shapes_retain pool.graph other
      exact .inl ⟨ShapeGraph.size_congr same ▸ inRange, ShapeGraph.layout_congr same shape⟩
  | release other =>
      have same := ShapeGraph.shapes_release pool.graph other
      exact .inl ⟨ShapeGraph.size_congr same ▸ inRange, ShapeGraph.layout_congr same shape⟩

/-- A step that was taken leads to the layout after it, then and at all times behind. -/
theorem Canonical.layout_target (canonical : pool.Canonical) (admits : pool.Admits moves)
    {earlier later : Nat} (order : earlier < later) {shape : ShapeId} {step : Transition}
    (taken : moves[earlier]? = some (.take shape step)) :
    (pool.atMoment moves later).graph.layout ((pool.atMoment moves earlier).target shape step) =
      ((pool.atMoment moves earlier).graph.layout shape).after step := by
  have reached := ShapeStore.transition_target (pool.atMoment moves earlier).store
    (canonical.atMoment earlier).faithful shape step (admits earlier _ taken)
  have made := shapes_take (pool.atMoment moves earlier) shape step
  rw [← atMoment_succ taken] at made
  have extended : (pool.atMoment moves later).graph.Extends
      (pool.atMoment moves (earlier + 1)).graph := canonical.extends_later order
  rw [extended.layout_eq _ (ShapeGraph.size_congr made ▸ reached.1),
    ShapeGraph.layout_congr made]
  exact reached.2

/-- What holds of the first layouts, and of the layout after every step that is taken until
some moment if it holds before the step, holds of all layouts at that moment. -/
theorem layouts_satisfy (Holds : Layout → Prop) (admits : pool.Admits moves)
    (initially : ∀ shape, shape < pool.graph.size → Holds (pool.graph.layout shape))
    {last : Nat}
    (kept : ∀ moment, moment < last → ∀ shape step, moves[moment]? = some (.take shape step) →
      Holds ((pool.atMoment moves moment).graph.layout shape) →
        Holds (((pool.atMoment moves moment).graph.layout shape).after step)) :
    ∀ shape, shape < (pool.atMoment moves last).graph.size →
      Holds ((pool.atMoment moves last).graph.layout shape) := by
  induction last with
  | zero => exact initially
  | succ last inductionHypothesis =>
      have before := inductionHypothesis fun moment earlier =>
        kept moment (Nat.lt_succ_of_lt earlier)
      cases found : moves[last]? with
      | none => rwa [atMoment_end found]
      | some move =>
          rw [atMoment_succ found]
          intro shape inRange
          rcases layout_run inRange with ⟨old, layout_eq⟩ | ⟨source, step, rfl, layout_eq⟩
          · rw [layout_eq]
            exact before shape old
          · rw [layout_eq]
            exact kept last (Nat.lt_succ_self last) source step found
              (before source (admits last _ found))

/-- Every property is added under a new key. -/
def AddsNewKeys (pool : ShapePool) (moves : List ShapeMove) : Prop :=
  ∀ moment shape step, moves[moment]? = some (.take shape step) →
    ((pool.atMoment moves moment).graph.layout shape).Allows step

theorem layout_start {config : Config} (shape : ShapeId)
    (inRange : shape < (start config).graph.size) :
    (start config).graph.layout shape = .empty := by
  obtain rfl : shape = 0 := Nat.lt_one_iff.mp inRange
  rfl

/-- Every layout is well formed, over any moves by which properties are added under new keys. -/
theorem wellFormed_layout (config : Config) (admits : (start config).Admits moves)
    (adds : (start config).AddsNewKeys moves) {moment : Nat} (shape : ShapeId)
    (inRange : shape < ((start config).atMoment moves moment).graph.size) :
    (((start config).atMoment moves moment).graph.layout shape).WellFormed := by
  refine layouts_satisfy Layout.WellFormed admits ?_ ?_ shape inRange
  · intro first isFirst
    rw [layout_start first isFirst]
    exact Layout.wellFormed_empty
  · intro earlier _ source step taken before
    exact before.after (adds earlier source step taken)

/-- No step until this moment sets a frozen flag too early. -/
def TimelyUntil (pool : ShapePool) (moves : List ShapeMove) (last : Nat) : Prop :=
  ∀ moment, moment < last → ∀ shape step, moves[moment]? = some (.take shape step) →
    ¬((pool.atMoment moves moment).graph.layout shape).FreezesEarly step

/-- What the flags promise along a list of moves. A sealed flag means that no property is
configurable, and so does a frozen flag, which means as well that every data property is
read-only, as long as no step has set such a flag too early. A step that does so leads to a
layout with a frozen flag and a writable property. -/
structure FlagsHold (pool : ShapePool) (moves : List ShapeMove) : Prop where
  fixed : ∀ moment shape, shape < (pool.atMoment moves moment).graph.size →
    let layout := (pool.atMoment moves moment).graph.layout shape
    layout.sealed = true ∨ layout.frozen = true →
      ∀ property ∈ layout.properties, property.attributes.configurable = false
  readOnly : ∀ moment shape, shape < (pool.atMoment moves moment).graph.size →
    pool.TimelyUntil moves moment → ((pool.atMoment moves moment).graph.layout shape).FrozenHolds
  early : ∀ moment shape step, moves[moment]? = some (.take shape step) →
    ((pool.atMoment moves moment).graph.layout shape).FreezesEarly step →
      let target := (pool.atMoment moves moment).target shape step
      let layout := (pool.atMoment moves (moment + 1)).graph.layout target
      layout.frozen = true ∧ ∃ property ∈ layout.properties,
        property.kind = .data ∧ property.attributes.writable = true

/-- The flags hold over any moves by which properties are added under new keys. -/
theorem flagsHold (config : Config) (admits : (start config).Admits moves)
    (adds : (start config).AddsNewKeys moves) : (start config).FlagsHold moves := by
  refine ⟨?_, ?_, ?_⟩
  · intro moment shape inRange layout flagged
    have wellFormed : layout.WellFormed := wellFormed_layout config admits adds shape inRange
    exact wellFormed.fixedWhenSealed (flagged.elim id wellFormed.sealedWhenFrozen)
  · intro moment shape inRange timely
    refine layouts_satisfy Layout.FrozenHolds admits ?_ ?_ shape inRange
    · intro first isFirst
      rw [layout_start first isFirst]
      exact Layout.frozenHolds_empty
    · intro earlier before source step taken holds
      exact (holds.after_iff step).mpr (timely earlier before source step taken)
  · intro moment shape step taken early target layout
    have layout_eq : layout = _ :=
      (canonical_start config).layout_target admits (Nat.lt_succ_self moment) taken
    rw [layout_eq]
    exact early.wrong

end ShapePool

end ObjectModel
