import ObjectModel.Proofs.Machine.Journal
import ObjectModel.Proofs.Machine.Ordinary

/-!
Contract: the essential invariants of objects over whole runs.

`Heap.Preserves` relates any two moments of a run of user code in any depth, in their order:
an object that was not extensible stays so and keeps its prototype, it gets no key that it
did not have, and a property that was fixed persists.

Mixed definitions have to be left out. One that repeats the getter of a fixed accessor and
has a value as well passes the checks, and makes the accessor a data property.
-/

namespace ObjectModel

/-- The moments of a run, from its start to its end: the heap whenever an internal method
started or ended. -/
def Script.moments {σ α : Type} (host : Host σ) (fuel : Nat) (script : Script σ α)
    (world : World σ) : List Heap :=
  world.heap :: (script.journal host fuel world).map Event.heap ++
    [(Exec.reached (script.run host fuel) world).heap]

/-- Between any two moments of a run every object is preserved, whatever the script and the
functions, getters, setters and traps that it calls ask for, as long as no definition is
mixed. The moments are those of the run itself, which ends as it does without a journal. -/
theorem Script.run_preserves {σ α : Type} {host : Host σ} (hostProper : host.IsProper)
    {script : Script σ α} (scriptProper : script.IsProper) (fuel : Nat) (world : World σ)
    (reachable : world.heap.Reachable) :
    Exec.withoutJournal (script.runNoted host fuel world.withJournal) =
        script.run host fuel world ∧
      (script.moments host fuel world).Pairwise fun before after =>
        ∀ id, id < before.objects.size → before.Preserves id after := by
  have wellFormed := reachable.wellFormed
  refine ⟨Script.runNoted_eq hostProper scriptProper fuel wellFormed, ?_⟩
  have history := Script.journal_isHistory hostProper scriptProper fuel wellFormed
  have inOrder : (script.moments host fuel world).Pairwise Heap.Evolves := by
    rw [Script.moments, List.pairwise_append]
    refine ⟨history.ordered, List.pairwise_singleton _ _, ?_⟩
    intro heap member last isLast
    rw [List.mem_singleton.mp isLast]
    exact history.reaches heap member
  have fromStart : ∀ heap ∈ script.moments host fuel world, heap.WellFormed := by
    intro heap member
    rcases List.mem_cons.mp member with isStart | later
    · rw [isStart]
      exact wellFormed
    · exact (wellFormed.follows (List.rel_of_pairwise_cons inOrder later)).wellFormed
  refine inOrder.imp_of_mem fun beforeMember _ evolves id inRange => ?_
  have before := fromStart _ beforeMember
  exact (before.follows evolves).preserves before inRange

/-- A fixed property outlasts a script that deletes it and defines it anew. -/
theorem Script.run_preserves_constant :
    let key := PropertyKey.symbol ⟨0, none⟩
    let constant := Descriptor.data .null ⟨false, true, false⟩
    let heap := Heap.Command.runAll (.start {}) [
      .allocate 0 .ordinary none false, .defineOwn 0 key constant]
    let script : Script Unit Unit := .ask (.call (.delete 0 key)) fun _ =>
      .ask (.call (.createData 0 key .undefined)) fun _ => .done ()
    ∃ result, (Exec.reached (script.run (fun _ _ _ => .done (.ok .undefined)) 1)
        ⟨heap, 0, ()⟩).heap.getOwn 0 key = some result ∧ constant.Persists result := by
  intro key constant heap script
  have hostProper : Host.IsProper (fun _ _ _ => .done (.ok .undefined) : Host Unit) :=
    fun _ _ _ => .done _
  have scriptProper : script.IsProper :=
    .ask (.call (.delete 0 key)) trivial fun _ =>
      .ask (.call (.createData 0 key .undefined)) rfl fun _ => .done ()
  have reachable : heap.Reachable := ⟨{}, _, rfl⟩
  have found : heap.getOwn 0 key = some constant := by decide
  have inRange : 0 < heap.objects.size := by decide
  have preserved := (Script.run_preserves hostProper scriptProper 1 ⟨heap, 0, ()⟩ reachable).2
  have ends := List.rel_of_pairwise_cons preserved
    (List.mem_append_right _ (List.mem_singleton_self _))
  exact (ends 0 inRange).fixed key constant found rfl

/-- A definition on an object that is not exotic. -/
private theorem run_define {σ : Type} (host : Host σ) (fuel : Nat) {id : ObjectId}
    {world : World σ} (ordinary : world.heap.isExotic id = false) {key : PropertyKey}
    {change : Descriptor} {verdict : Verdict}
    (answers : (world.heap.defineOwn id key change).2 = .ok verdict) :
    Call.run host (fuel + 1) (.defineOwnProperty id key change) world =
      .ok verdict { world with heap := (world.heap.defineOwn id key change).1 } := by
  have defined : world.heap.defineOwn id key change =
      ((world.heap.defineOwn id key change).1, .ok verdict) := Prod.ext rfl answers
  exact Call.run_defineOwn host fuel world ordinary defined

/-- A mixed definition makes a fixed accessor a data property. -/
theorem Call.run_mixed_definition :
    let key := PropertyKey.symbol ⟨0, none⟩
    let heap := Heap.Command.runAll (.start {}) [
      .allocate 0 .ordinary none false,
      .defineOwn 0 key (.accessor none none true false)]
    let mixed : Descriptor := { get := some .undefined, value := some .null }
    heap.Reachable ∧ ∃ after, Call.run (fun _ _ _ => .done (.ok .undefined)) 1
        (.defineOwnProperty 0 key mixed) ⟨heap, 0, ()⟩ = .ok .accepted ⟨after, 0, ()⟩ ∧
      ¬ heap.Preserves 0 after := by
  intro key heap mixed
  refine ⟨⟨{}, _, rfl⟩, ?_⟩
  have ordinary : heap.isExotic 0 = false := by decide
  have accepted : (heap.defineOwn 0 key mixed).2 = .ok .accepted := by decide
  have found : heap.getOwn 0 key = some (.accessor none none true false) := by decide
  have isData : (heap.defineOwn 0 key mixed).1.getOwn 0 key =
      some (.data .null ⟨false, true, false⟩) := by decide
  clear_value heap
  refine ⟨(heap.defineOwn 0 key mixed).1, run_define _ 0 ordinary accepted, ?_⟩
  intro preserves
  obtain ⟨result, resultFound, persists⟩ := preserves.fixed key _ found rfl
  rw [isData] at resultFound
  cases resultFound
  exact absurd persists.isAccessor (by decide)

end ObjectModel
