import ObjectModel.Machine.Exec

/-!
Contract: what is known of the parts of a computation that ended with an answer.
-/

namespace ObjectModel.Exec

variable {σ α β : Type}

theorem bind_apply (first : Exec σ α) (next : α → Exec σ β) (world : World σ) :
    (first >>= next) world =
      match first world with
      | .ok answer world => next answer world
      | .error fault world => .error fault world := by
  show EStateM.bind first next world = _
  unfold EStateM.bind
  cases first world <;> rfl

/-- A computation on the heap as it is now. -/
theorem heap_bind (next : Heap → Exec σ α) (world : World σ) :
    (heap >>= next) world = next world.heap world :=
  rfl

/-- A computation with objects in hand. -/
theorem holding_apply (objects : List ObjectId) (computation : Exec σ α) (world : World σ) :
    holding objects computation world =
      match computation { world with heap := world.heap.holdAll objects } with
      | .ok answer after => .ok answer { after with heap := after.heap.releaseAll objects }
      | .error fault after => .error fault { after with heap := after.heap.releaseAll objects } :=
  rfl

/-! ### Equal ends -/

/-- A sequence depends on how its first part ends. -/
theorem bind_congr {first second : Exec σ α} {world : World σ} (same : first world = second world)
    (next : α → Exec σ β) : (first >>= next) world = (second >>= next) world := by
  rw [bind_apply, bind_apply, same]

theorem holding_congr {objects : List ObjectId} {first second : Exec σ α} {world : World σ}
    (same : first { world with heap := world.heap.holdAll objects } =
      second { world with heap := world.heap.holdAll objects }) :
    holding objects first world = holding objects second world := by
  rw [holding_apply, holding_apply, same]

/-! ### Ends with an answer -/

variable {before after : World σ}

/-- Both parts of a sequence have answers. -/
theorem bind_eq_ok {first : Exec σ α} {next : α → Exec σ β} {answer : β}
    (ended : (first >>= next) before = .ok answer after) :
    ∃ value between, first before = .ok value between ∧
      next value between = .ok answer after := by
  rw [bind_apply] at ended
  cases result : first before with
  | ok value between =>
      rw [result] at ended
      exact ⟨value, between, rfl, ended⟩
  | error fault between =>
      rw [result] at ended
      cases ended

theorem onHeap_eq_ok {step : Heap → Heap × α} {answer : α}
    (ended : onHeap step before = .ok answer after) :
    answer = (step before.heap).2 ∧ after = { before with heap := (step before.heap).1 } := by
  cases ended
  exact ⟨rfl, rfl⟩

theorem onHeapOrRaise_eq_ok {step : Heap → Heap × Except TypeFault α} {answer : α}
    (ended : onHeapOrRaise step before = .ok answer after) :
    (step before.heap).2 = .ok answer ∧ after = { before with heap := (step before.heap).1 } := by
  obtain ⟨result, between, stepped, rest⟩ := bind_eq_ok ended
  obtain ⟨rfl, rfl⟩ := onHeap_eq_ok stepped
  generalize (step before.heap).2 = result at rest
  cases result with
  | ok result =>
      cases rest
      exact ⟨rfl, rfl⟩
  | error fault => cases rest

theorem andFinally_eq_ok {computation : Exec σ α} {close : World σ → World σ} {answer : α}
    (ended : computation.andFinally close before = .ok answer after) :
    ∃ between, computation before = .ok answer between ∧ after = close between := by
  unfold andFinally at ended
  cases result : computation before with
  | ok value between =>
      rw [result] at ended
      cases ended
      exact ⟨between, rfl, rfl⟩
  | error fault between =>
      rw [result] at ended
      cases ended

theorem holding_eq_ok {objects : List ObjectId} {computation : Exec σ α} {answer : α}
    (ended : holding objects computation before = .ok answer after) :
    ∃ between, computation { before with heap := before.heap.holdAll objects } =
        .ok answer between ∧
      after = { between with heap := between.heap.releaseAll objects } := by
  obtain ⟨_, held, first, rest⟩ := bind_eq_ok ended
  cases first
  exact andFinally_eq_ok rest

theorem inProxyFrame_eq_ok {proxy : ObjectId} {computation : Exec σ α} {answer : α}
    (ended : inProxyFrame proxy computation before = .ok answer after) :
    ∃ between, computation { before with depth := before.depth + 1 } = .ok answer between ∧
      after = { between with depth := between.depth - 1 } := by
  unfold inProxyFrame at ended
  split at ended
  · exact andFinally_eq_ok ended
  · cases ended

end ObjectModel.Exec
