import ObjectModel.Proofs.Machine.Evolution

/-!
Contract: a run with a journal of every internal method that it takes.

`Call.runNoted` is `Call.run` with more state beside that of the user code: whenever a
method starts or ends, at any depth, the heap is noted. The journal changes nothing
(`Script.runNoted_eq`), so what it says is true of the run without it: its heaps evolve in
the order in which they were noted, and each end is the end of a run of the method that had
started.

Does not own: what follows for objects.
-/

namespace ObjectModel

/-- One moment of a run. The end of a method refers to its start by position. -/
inductive Event where
  | started (method : Call) (heap : Heap)
  | ended (start : Nat) (method : Call) (outcome : Except Fault method.Answer) (heap : Heap)

def Event.heap : Event → Heap
  | .started _ heap => heap
  | .ended _ _ _ heap => heap

/-- The answer that an event gives to a method that started at a position. -/
def Event.answer? (method : Call) (start : Nat) : Event → Option method.Answer
  | .ended start' method' (.ok answer) _ =>
      if same : method' = method ∧ start' = start then some (same.1 ▸ answer) else none
  | _ => none

theorem Event.eq_ended_of_answer? {method : Call} {start : Nat} {event : Event}
    {answer : method.Answer} (answers : event.answer? method start = some answer) :
    ∃ heap, event = .ended start method (.ok answer) heap := by
  unfold Event.answer? at answers
  split at answers
  · rename_i start' method' answer' heap
    by_cases same : method' = method ∧ start' = start
    · obtain ⟨rfl, rfl⟩ := same
      rw [dif_pos ⟨rfl, rfl⟩] at answers
      cases answers
      exact ⟨heap, rfl⟩
    · rw [dif_neg same] at answers
      contradiction
  · contradiction

/-- What happened, in order. -/
abbrev Journal := List Event

variable {σ : Type}

/-- The world with an empty journal. -/
def World.withJournal (world : World σ) : World (σ × Journal) where
  heap := world.heap
  depth := world.depth
  client := (world.client, [])

def World.withoutJournal (world : World (σ × Journal)) : World σ where
  heap := world.heap
  depth := world.depth
  client := world.client.1

namespace Exec

variable {α : Type}

/-- The result of a computation that ended like this. -/
def result (outcome : Except Fault α) (world : World σ) :
    EStateM.Result Fault (World σ) α :=
  match outcome with
  | .ok answer => .ok answer world
  | .error fault => .error fault world

def note (event : Event) (world : World (σ × Journal)) : World (σ × Journal) :=
  { world with client := (world.client.1, world.client.2 ++ [event]) }

def withoutJournal :
    EStateM.Result Fault (World (σ × Journal)) α → EStateM.Result Fault (World σ) α
  | .ok answer world => .ok answer world.withoutJournal
  | .error fault world => .error fault world.withoutJournal

/-- A method with its start and its end noted. -/
def noted (method : Call) (computation : Exec (σ × Journal) method.Answer) :
    Exec (σ × Journal) method.Answer := fun world =>
  let start := world.client.2.length
  match computation (note (.started method world.heap) world) with
  | .ok answer world =>
      .ok answer (note (.ended start method (.ok answer) world.heap) world)
  | .error fault world =>
      .error fault (note (.ended start method (.error fault) world.heap) world)

end Exec

/-- A script that leaves the journal alone. -/
def Script.besideJournal {α : Type} : Script σ α → Script (σ × Journal) α
  | .done result => .done result
  | .ask request next => .ask request fun answer => (next answer).besideJournal
  | .look next => .look fun state => (next state.1).besideJournal
  | .update change next =>
      .update (fun state => (change state.1, state.2)) next.besideJournal

def Host.besideJournal (host : Host σ) : Host (σ × Journal) :=
  fun code this arguments => (host code this arguments).besideJournal

def Call.runNoted (host : Host σ) : (fuel : Nat) → Dispatch (σ × Journal)
  | 0, _ => Exec.outOfFuel
  | fuel + 1, method =>
      Exec.noted method (Call.step host.besideJournal (Call.runNoted host fuel) method)

def Script.runNoted {α : Type} (host : Host σ) (fuel : Nat) (script : Script σ α) :
    Exec (σ × Journal) α :=
  script.besideJournal.exec (Request.perform (Call.runNoted host fuel))

/-- The journal that a script leaves behind. -/
def Script.journal {α : Type} (host : Host σ) (fuel : Nat) (script : Script σ α)
    (world : World σ) : Journal :=
  (Exec.reached (script.runNoted host fuel) world.withJournal).client.2

/-! ### Histories -/

/-- One more heap to which all heaps so far lead. -/
theorem Journal.pairwise_concat {leads : Heap → Heap → Prop} {heaps : List Heap} {now : Heap}
    (ordered : heaps.Pairwise leads) (reaches : ∀ heap ∈ heaps, leads heap now) :
    (heaps ++ [now]).Pairwise leads := by
  rw [List.pairwise_append]
  refine ⟨ordered, List.pairwise_singleton _ _, ?_⟩
  intro heap member last isLast
  rw [List.mem_singleton.mp isLast]
  exact reaches heap member

/-- The method may have started at the one heap and ended at the other. -/
def Call.Takes (host : Host σ) (method : Call) (before : Heap)
    (outcome : Except Fault method.Answer) (after : Heap) : Prop :=
  method.IsProper ∧ ∃ fuel first last, first.heap = before ∧ last.heap = after ∧
    Call.run host fuel method first = Exec.result outcome last

/-- A journal that was kept from one heap to another. -/
structure Journal.IsHistory (host : Host σ) (start : Heap) (journal : Journal) (now : Heap) :
    Prop where
  wellFormed : start.WellFormed
  ordered : (start :: journal.map Event.heap).Pairwise Heap.Evolves
  reaches : ∀ heap ∈ start :: journal.map Event.heap, heap.Evolves now
  ends : ∀ {position first : Nat} {method : Call} {outcome : Except Fault method.Answer}
    {after : Heap}, journal[position]? = some (Event.ended first method outcome after) →
      ∃ before, first < position ∧ journal[first]? = some (Event.started method before) ∧
        Call.Takes host method before outcome after

namespace Journal.IsHistory

variable {host : Host σ} {start now : Heap} {journal : Journal}

theorem nil (wellFormed : start.WellFormed) : IsHistory host start [] start where
  wellFormed := wellFormed
  ordered := List.pairwise_singleton _ _
  reaches := fun heap member => by rw [List.mem_singleton.mp member]
  ends := fun found => by cases found

theorem evolves (history : IsHistory host start journal now) {later : Heap}
    (step : now.Evolves later) : IsHistory host start journal later :=
  { history with reaches := fun heap member => (history.reaches heap member).trans step }

theorem wellFormed_at (history : IsHistory host start journal now) {position : Nat} {event : Event}
    (found : journal[position]? = some event) : event.heap.WellFormed := by
  have member := List.mem_map_of_mem (f := Event.heap) (List.mem_of_getElem? found)
  exact (history.wellFormed.follows
    (List.rel_of_pairwise_cons history.ordered member)).wellFormed

/-- Later moments come about by allowed steps. -/
theorem follows_of_lt (history : IsHistory host start journal now) {earlier later : Nat}
    {event event' : Event} (order : earlier < later) (found : journal[earlier]? = some event)
    (found' : journal[later]? = some event') : event.heap.Follows event'.heap := by
  obtain ⟨inside, rfl⟩ := List.getElem?_eq_some_iff.mp found
  obtain ⟨inside', rfl⟩ := List.getElem?_eq_some_iff.mp found'
  have ordered := List.pairwise_iff_getElem.mp
    (List.pairwise_map.mp (List.pairwise_cons.mp history.ordered).2)
  exact (history.wellFormed_at found).follows (ordered earlier later inside inside' order)

/-- The heap as it is now, noted. -/
private theorem concat (history : IsHistory host start journal now) {event : Event}
    (isNow : event.heap = now)
    (ended : ∀ {first : Nat} {method : Call} {outcome : Except Fault method.Answer}
      {after : Heap}, event = .ended first method outcome after →
      ∃ before, journal[first]? = some (Event.started method before) ∧
        Call.Takes host method before outcome after) :
    IsHistory host start (journal ++ [event]) now := by
  have heaps : start :: (journal ++ [event]).map Event.heap =
      (start :: journal.map Event.heap) ++ [now] := by
    rw [List.map_append, List.map_singleton, isNow]
    rfl
  refine ⟨history.wellFormed, ?_, ?_, ?_⟩
  · rw [heaps]
    exact pairwise_concat history.ordered history.reaches
  · rw [heaps]
    intro heap member
    rcases List.mem_append.mp member with earlier | isLast
    · exact history.reaches heap earlier
    · rw [List.mem_singleton.mp isLast]
  · intro position first method outcome after found
    rcases Nat.lt_or_ge position journal.length with inside | outside
    · rw [List.getElem?_append_left inside] at found
      obtain ⟨before, order, started, takes⟩ := history.ends found
      have earlier : first < journal.length := Nat.lt_trans order inside
      exact ⟨before, order, by rw [List.getElem?_append_left earlier, started], takes⟩
    · rw [List.getElem?_append_right outside, List.getElem?_singleton] at found
      split at found
      · rename_i atEnd
        obtain ⟨before, started, takes⟩ := ended (Option.some.inj found)
        have inside := (List.getElem?_eq_some_iff.mp started).1
        exact ⟨before, Nat.lt_of_lt_of_le inside outside,
          by rw [List.getElem?_append_left inside, started], takes⟩
      · cases found

theorem started (history : IsHistory host start journal now) (method : Call) :
    IsHistory host start (journal ++ [.started method now]) now :=
  history.concat rfl fun isEnded => by cases isEnded

theorem ended (history : IsHistory host start journal now) {first : Nat} {method : Call}
    {before : Heap} (isStarted : journal[first]? = some (Event.started method before))
    {outcome : Except Fault method.Answer} (takes : Call.Takes host method before outcome now) :
    IsHistory host start (journal ++ [.ended first method outcome now]) now := by
  refine history.concat rfl fun isEnded => ?_
  cases isEnded
  exact ⟨before, isStarted, takes⟩

end Journal.IsHistory

/-! ### The journal beside a run -/

/-- The same world beside a journal, which has this beginning. -/
structure Journal.Beside (host : Host σ) (start : Heap) (beginning : Journal)
    (left : World σ) (right : World (σ × Journal)) : Prop where
  heap_eq : right.heap = left.heap
  depth_eq : right.depth = left.depth
  client_eq : right.client.1 = left.client
  begins : beginning <+: right.client.2
  history : Journal.IsHistory host start right.client.2 left.heap

namespace Journal

variable {host : Host σ} {start : Heap} {beginning : Journal}

theorem compatible_beside : Compatible (Beside host start beginning) where
  heap_eq := Beside.heap_eq
  depth_eq := Beside.depth_eq
  command := by
    intro left right worlds command allowed
    exact { worlds with
      heap_eq := rfl
      history := worlds.history.evolves (.single (.take command allowed)) }
  depth := by
    intro left right worlds depth
    exact { worlds with depth_eq := rfl }

theorem similar_beside {α : Type} {script : Script σ α} (proper : script.IsProper) :
    Script.Similar (Beside host start beginning) script script.besideJournal := by
  induction proper with
  | done result => exact .done result
  | ask request proper rest inductionHypothesis => exact .ask request proper inductionHypothesis
  | look rest inductionHypothesis =>
      refine .look fun left right worlds => ?_
      rw [worlds.client_eq]
      exact inductionHypothesis left.client
  | update change rest inductionHypothesis =>
      refine .update (fun left right worlds => ?_) inductionHypothesis
      exact { worlds with client_eq := congrArg change worlds.client_eq }

theorem wellFormed_of_beside {left : World σ} {right : World (σ × Journal)}
    (worlds : Beside host start beginning left right) : left.heap.WellFormed :=
  (worlds.history.wellFormed.follows
    (worlds.history.reaches start List.mem_cons_self)).wellFormed

/-- What a method does is the same with its start and its end noted. -/
private theorem noted_agrees {method : Call} {computation : Exec σ method.Answer}
    {computation' : Exec (σ × Journal) method.Answer}
    (agrees : ∀ beginning, Agrees (Beside host start beginning) computation computation')
    (takes : ∀ {before outcome after}, computation before = Exec.result outcome after →
      Call.Takes host method before.heap outcome after.heap) :
    Agrees (Beside host start beginning) computation (Exec.noted method computation') := by
  intro left right worlds
  have startNoted : Beside host start (right.client.2 ++ [.started method right.heap]) left
      (Exec.note (.started method right.heap) right) := by
    refine ⟨worlds.heap_eq, worlds.depth_eq, worlds.client_eq, List.prefix_refl _, ?_⟩
    rw [worlds.heap_eq]
    exact worlds.history.started method
  have endNoted : ∀ {outcome} {left' : World σ} {right' : World (σ × Journal)},
      Beside host start (right.client.2 ++ [.started method right.heap]) left' right' →
        computation left = Exec.result outcome left' →
          Beside host start beginning left'
            (Exec.note (.ended right.client.2.length method outcome right'.heap) right') := by
    intro outcome left' right' worlds' ended
    have isStarted : right'.client.2[right.client.2.length]? =
        some (Event.started method left.heap) := by
      obtain ⟨later, journal_eq⟩ := worlds'.begins
      rw [← journal_eq, List.append_assoc, List.getElem?_append_right (Nat.le_refl _),
        Nat.sub_self, worlds.heap_eq]
      rfl
    refine ⟨worlds'.heap_eq, worlds'.depth_eq, worlds'.client_eq, ?_, ?_⟩
    · exact worlds.begins.trans ((List.prefix_append _ _).trans
        (worlds'.begins.trans (List.prefix_append _ _)))
    · rw [worlds'.heap_eq]
      exact worlds'.history.ended isStarted (takes ended)
  have results := agrees _ _ _ startNoted
  unfold Exec.noted
  simp only
  generalize ended : computation left = result,
    computation' (Exec.note (.started method right.heap) right) = result' at results
  cases results with
  | ok answer worlds' => exact .ok answer (endNoted worlds' ended)
  | error fault worlds' => exact .error fault (endNoted worlds' ended)

variable (hostProper : host.IsProper)

include hostProper

theorem runNoted_agrees (fuel : Nat) (beginning : Journal) :
    DispatchAgrees (Beside host start beginning) (Call.run host fuel)
      (Call.runNoted host fuel) := by
  induction fuel generalizing beginning with
  | zero =>
      exact ⟨fun _ _ => .outOfFuel, fun worlds =>
        Call.run_readsOwn hostProper 0 (wellFormed_of_beside worlds)⟩
  | succ fuel inductionHypothesis =>
      refine ⟨?_, fun worlds =>
        Call.run_readsOwn hostProper (fuel + 1) (wellFormed_of_beside worlds)⟩
      intro method proper
      refine noted_agrees (fun beginning => ?_) fun {before outcome after} ended => ?_
      · exact Call.step_agrees compatible_beside (inductionHypothesis beginning)
          (fun code this arguments => similar_beside (hostProper code this arguments)) proper
      · exact ⟨proper, fuel + 1, before, after, rfl, rfl, ended⟩

end Journal

section Script

variable {host : Host σ} (hostProper : host.IsProper) {α : Type} {script : Script σ α}
  (scriptProper : script.IsProper) (fuel : Nat) {world : World σ}
  (wellFormed : world.heap.WellFormed)

include hostProper scriptProper wellFormed

private theorem Script.runNoted_matches :
    Matches (Journal.Beside host world.heap []) (script.run host fuel world)
      (script.runNoted host fuel world.withJournal) :=
  Script.exec_agrees Journal.compatible_beside (Journal.runNoted_agrees hostProper fuel [])
    (Journal.similar_beside scriptProper) _ _
    ⟨rfl, rfl, rfl, List.prefix_refl _, .nil wellFormed⟩

/-- A run is the same with the journal left out. -/
theorem Script.runNoted_eq :
    Exec.withoutJournal (script.runNoted host fuel world.withJournal) =
      script.run host fuel world := by
  have results := Script.runNoted_matches hostProper scriptProper fuel wellFormed
  have worldEq : ∀ {left : World σ} {right : World (σ × Journal)},
      Journal.Beside host world.heap [] left right → right.withoutJournal = left := by
    intro left right worlds
    rw [World.withoutJournal, worlds.heap_eq, worlds.depth_eq, worlds.client_eq]
  generalize script.run host fuel world = result,
    script.runNoted host fuel world.withJournal = result' at results
  cases results with
  | ok answer worlds => exact congrArg (EStateM.Result.ok answer) (worldEq worlds)
  | error fault worlds => exact congrArg (EStateM.Result.error fault) (worldEq worlds)

/-- The journal of a script tells its history. -/
theorem Script.journal_isHistory :
    (script.journal host fuel world).IsHistory host world.heap
      (Exec.reached (script.run host fuel) world).heap := by
  have results := Script.runNoted_matches hostProper scriptProper fuel wellFormed
  unfold Script.journal Exec.reached
  generalize script.run host fuel world = result,
    script.runNoted host fuel world.withJournal = result' at results
  cases results with
  | ok answer worlds => exact worlds.history
  | error fault worlds => exact worlds.history

end Script

end ObjectModel
