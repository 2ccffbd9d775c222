import ObjectModel.Proofs.Heap.Integrity
import ObjectModel.Proofs.Shape.Flags

/-!
Contract: what a test of integrity answers, whatever way it takes.

The flags of a layout and a scan of the properties agree, but for one case: an object whose
layout has a frozen flag that was set too early (`Heap.MissesFreeze`) counts as frozen as soon
as it is not extensible, though a property of it is writable.
-/

namespace ObjectModel

namespace Heap

/-- Every own property is protected to a level, as its descriptions tell. -/
def IsProtected (heap : Heap) (id : ObjectId) (level : Integrity) : Prop :=
  ∀ key current, heap.getOwn id key = some current →
    current.isConfigurable = false ∧
      (level = .frozen → current.isData = true → current.isWritable = false)

theorem isProtected_iff (level : Integrity) (attributes : Attributes) (slot : Slot) :
    isProtected level attributes slot = true ↔
      (Descriptor.ofStored attributes slot).isConfigurable = false ∧
        (level = .frozen → (Descriptor.ofStored attributes slot).isData = true →
          (Descriptor.ofStored attributes slot).isWritable = false) := by
  obtain ⟨writable, enumerable, configurable⟩ := attributes
  cases slot <;> cases level <;> cases writable <;> cases configurable <;>
    simp [isProtected, Slot.kind, Descriptor.ofStored, Descriptor.data, Descriptor.accessor,
      Descriptor.isConfigurable, Descriptor.isData, Descriptor.isWritable]

section Test

variable {heap : Heap} (wellFormed : heap.WellFormed) (id : ObjectId)

include wellFormed

/-- The scan looks at every property. -/
theorem WellFormed.scan_iff (level : Integrity) :
    ((heap.keys id).all fun key =>
      (heap.lookup id key).all fun (attributes, slot) => isProtected level attributes slot) =
        true ↔ heap.IsProtected id level := by
  simp only [List.all_eq_true, Option.all_eq_true]
  constructor
  · intro scanned key current found
    obtain ⟨⟨attributes, slot⟩, search, rfl⟩ := Option.map_eq_some_iff.mp found
    have listed : key ∈ heap.keys id := by
      rw [wellFormed.keys_eq]
      exact wellFormed.mem_keys_of_getOwn id found
    exact (isProtected_iff level attributes slot).mp (scanned key listed _ search)
  · rintro fixed key - ⟨attributes, slot⟩ search
    apply (isProtected_iff level attributes slot).mpr
    apply fixed key
    rw [getOwn, search]
    rfl

/-- Where the layout answers at once, it is right unless it misses a writable property. -/
theorem WellFormed.isProtected_of_flag {level : Integrity}
    (flagged : (heap.layout? id).any (layoutHasIntegrity · level) = true)
    (notices : level = .frozen → ¬heap.MissesFreeze id) : heap.IsProtected id level := by
  obtain ⟨layout, found, quick⟩ := (Option.any_eq_true _ _).mp flagged
  intro key current isCurrent
  obtain ⟨⟨attributes, slot⟩, search, rfl⟩ := Option.map_eq_some_iff.mp isCurrent
  apply (isProtected_iff level attributes slot).mp
  have fixed := wellFormed.fixed_of_layout id found quick search
  by_contra unprotected
  simp only [isProtected, fixed, Bool.not_false, Bool.true_and, Bool.not_eq_true',
    Bool.not_eq_false, Bool.and_eq_true, decide_eq_true_eq] at unprotected
  obtain ⟨⟨isFrozen, isData⟩, writable⟩ := unprotected
  subst isFrozen
  cases slot with
  | accessor getter setter => contradiction
  | data value =>
      have skips : heap.skipsProtection id .frozen = true := by
        rw [skipsProtection, found]
        simpa [layoutHasIntegrity] using quick
      exact notices rfl ⟨skips, key, attributes, value, search, writable⟩

/-- A test tells whether every property is protected, unless the layout misses one. -/
theorem WellFormed.testIntegrity_iff {level : Integrity}
    (notices : level = .frozen → ¬heap.MissesFreeze id) :
    heap.testIntegrity id level = true ↔
      heap.isExtensible id = false ∧ heap.IsProtected id level := by
  rw [testIntegrity, Bool.and_eq_true, Bool.not_eq_true', Bool.or_eq_true,
    wellFormed.scan_iff id level]
  constructor
  · rintro ⟨isClosed, flagged | scanned⟩
    · exact ⟨isClosed, wellFormed.isProtected_of_flag id flagged notices⟩
    · exact ⟨isClosed, scanned⟩
  · rintro ⟨isClosed, isProtected⟩
    exact ⟨isClosed, .inr isProtected⟩

omit wellFormed in
/-- Otherwise it only tells whether the object is extensible. -/
theorem MissesFreeze.testIntegrity_eq (misses : heap.MissesFreeze id) :
    heap.testIntegrity id .frozen = !heap.isExtensible id := by
  have flagged : (heap.layout? id).any (layoutHasIntegrity · .frozen) = true := by
    rw [← misses.1, skipsProtection]
    cases heap.layout? id with
    | none => rfl
    | some layout => simp [layoutHasIntegrity]
  rw [testIntegrity, flagged, Bool.true_or, Bool.and_true]

end Test

end Heap

/-- The flags of shapes hold over any moves by which properties are added under new keys, up
to the first step that sets a frozen flag too early. So a test whether an object that is not
exotic is sealed or frozen, in every heap that any definitions, deletions, writes and
protections lead to, tells whether it is not extensible and each of its properties is protected
as they report. It is wrong only about an object whose layout misses a writable property, which
counts as frozen once it is not extensible. -/
theorem Machine.testIntegrity_answers {σ : Type} (dispatch : Dispatch σ) :
    (∀ config moves, (ShapePool.start config).Admits moves →
      (ShapePool.start config).AddsNewKeys moves → (ShapePool.start config).FlagsHold moves) ∧
    ∀ (world : World σ) (id : ObjectId) (level : Integrity), world.heap.Reachable →
      world.heap.isExotic id = false →
      ∃ answer, Request.perform dispatch (.testIntegrity id level) world = .ok answer world ∧
        ((level = .frozen → ¬world.heap.MissesFreeze id) →
          (answer = true ↔
            world.heap.isExtensible id = false ∧ world.heap.IsProtected id level)) ∧
        (level = .frozen → world.heap.MissesFreeze id →
          (answer = true ↔ world.heap.isExtensible id = false)) := by
  refine ⟨fun config moves => ShapePool.flagsHold config, ?_⟩
  intro world id level reachable ordinary
  refine ⟨world.heap.testIntegrity id level, ?_, ?_, ?_⟩
  · show (if !world.heap.isExotic id then _ else _ : Exec σ Bool) world = _
    rw [ordinary]
    rfl
  · exact reachable.wellFormed.testIntegrity_iff id
  · rintro rfl misses
    rw [misses.testIntegrity_eq, Bool.not_eq_true']

/-- Two properties are added to a layout that is sealed then, and the first one is made
read-only. -/
def ShapeMove.sealThenFix : List ShapeMove := [
  .take 0 (.add (.symbol ⟨0, none⟩) .assigned .data),
  .take 1 (.add (.symbol ⟨1, none⟩) .assigned .data),
  .take 2 .seal,
  .take 3 (.reconfigure (.symbol ⟨0, none⟩) ⟨false, true, false⟩ .data)]

/-- The last step leads to a layout with a frozen flag, and an object that took the same steps
counts as frozen, while the second property is writable. -/
theorem Machine.testIntegrity_answers_early :
    let pool := (ShapePool.start {}).atMoment ShapeMove.sealThenFix 4
    let heap := Heap.Command.runAll (.start {}) Heap.Command.sealThenFix
    ((pool.graph.layout 4).frozen = true ∧ ¬(pool.graph.layout 4).FrozenHolds) ∧
      Request.perform (fun _ => Exec.outOfFuel : Dispatch Unit) (.testIntegrity 0 .frozen)
        ⟨heap, 0, ()⟩ = .ok true ⟨heap, 0, ()⟩ ∧
      heap.getOwn 0 (.symbol ⟨1, none⟩) = some (.data .null ⟨true, true, false⟩) := by
  intro pool heap
  obtain ⟨flags, answers⟩ :=
    Machine.testIntegrity_answers (fun _ => Exec.outOfFuel : Dispatch Unit)
  refine ⟨?_, ?_, by decide⟩
  · have admits : (ShapePool.start {}).Admits ShapeMove.sealThenFix := by
      intro moment move found
      match moment with
      | 0 | 1 | 2 | 3 =>
          cases found
          decide
      | moment + 4 => cases found
    have adds : (ShapePool.start {}).AddsNewKeys ShapeMove.sealThenFix := by
      intro moment shape step found
      match moment with
      | 0 | 1 =>
          cases found
          show Layout.find? _ _ = none
          decide
      | 2 | 3 =>
          cases found
          trivial
      | moment + 4 => cases found
    have isEarly : (((ShapePool.start {}).atMoment ShapeMove.sealThenFix 3).graph.layout
        3).FreezesEarly (.reconfigure (.symbol ⟨0, none⟩) ⟨false, true, false⟩ .data) :=
      ⟨by decide, by decide, rfl, .inr rfl,
        ⟨.symbol ⟨1, none⟩, ⟨true, true, false⟩, .data, 1⟩, by decide, by decide, rfl, rfl⟩
    obtain ⟨isFrozen, property, member, isData, writable⟩ :=
      (flags {} ShapeMove.sealThenFix admits adds).early 3 3 _ rfl isEarly
    refine ⟨isFrozen, fun holds => ?_⟩
    rw [holds isFrozen property member isData] at writable
    contradiction
  · have misses : heap.MissesFreeze 0 :=
      ⟨by decide, .symbol ⟨1, none⟩, ⟨true, true, false⟩, .null, by decide, rfl⟩
    have reachable : heap.Reachable := ⟨{}, Heap.Command.sealThenFix, rfl⟩
    have ordinary : heap.isExotic 0 = false := by decide
    have isClosed : heap.isExtensible 0 = false := by decide
    clear_value heap
    obtain ⟨answer, ended, -, early⟩ := answers ⟨heap, 0, ()⟩ 0 .frozen reachable ordinary
    rw [ended, (early rfl misses).mpr isClosed]

end ObjectModel
