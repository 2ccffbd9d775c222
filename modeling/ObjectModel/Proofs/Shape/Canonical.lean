import Mathlib.Data.List.Basic
import Mathlib.Data.Nat.Init
import ObjectModel.Proofs.Shape.Graph

/-!
Contract: one layout, one shape.

A `ShapePool` is a store with its shapes, and a `ShapeMove` is one thing that happens to
them: a step is taken, or a user comes or goes. Over any list of moves no shape changes its
layout, and a step that has led to a shape leads there again as long as that shape has stayed
in use, whatever else was remembered, died or was swept meanwhile.

The invariant is `ShapeGraph.Leads`: a remembered step outlasts every move at whose time its
target is in use. Nothing is asked of the users, who may come and go in any order.

Does not own: who the users are.
-/

namespace ObjectModel

namespace ShapeGraph

/-! ### One remembered step -/

/-- What a shape remembers of a step. -/
def edge? (graph : ShapeGraph) (id : ShapeId) (step : Transition) :
    Option (Transition × ShapeId) :=
  (graph.shape id).edges.find? (·.1 = step)

/-- The step leads to this shape, which is the first one if the step changes nothing. -/
def Leads (graph : ShapeGraph) (id : ShapeId) (step : Transition) (target : ShapeId) : Prop :=
  if (graph.layout id).isUnchangedBy step then target = id
  else graph.edge? id step = some (step, target)

/-- Every shape remembers a step at most once. -/
def RemembersOnce (graph : ShapeGraph) : Prop :=
  ∀ id, ((graph.shape id).edges.map Prod.fst).Nodup

theorem Leads.next?_eq {graph : ShapeGraph} {id target : ShapeId} {step : Transition}
    (leads : graph.Leads id step target) (inUse : graph.isInUse target = true) :
    graph.next? id step = some target := by
  unfold Leads at leads
  unfold next?
  split at leads
  · rw [leads, if_pos ‹_›]
  · rw [if_neg ‹_›]
    unfold edge? at leads
    rw [leads]
    simp [inUse]

theorem leads_of_next? {graph : ShapeGraph} {id target : ShapeId} {step : Transition}
    (found : graph.next? id step = some target) : graph.Leads id step target := by
  unfold next? at found
  unfold Leads
  split at found
  · rw [if_pos ‹_›]
    exact (Option.some.inj found).symm
  · rw [if_neg ‹_›]
    obtain ⟨edge, search, alive⟩ := Option.bind_eq_some_iff.mp found
    split at alive
    · cases alive
      have sameStep : edge.1 = step := by simpa using List.find?_some search
      rw [edge?, search, ← sameStep]
    · contradiction

theorem Leads.congr {left right : ShapeGraph} {id target : ShapeId} {step : Transition}
    (leads : left.Leads id step target) (same : right.shapes = left.shapes) :
    right.Leads id step target := by
  unfold Leads edge? at leads ⊢
  rwa [layout_congr same, shape_congr same]

theorem RemembersOnce.congr {left right : ShapeGraph} (once : left.RemembersOnce)
    (same : right.shapes = left.shapes) : right.RemembersOnce := by
  intro id
  rw [shape_congr same]
  exact once id

/-! ### New shapes -/

/-- Sweeping keeps what leads to a shape in use. -/
private theorem find?_sweptEdges {graph : ShapeGraph} {edges : List (Transition × ShapeId)}
    {step : Transition} {edge : Transition × ShapeId}
    (found : edges.find? (·.1 = step) = some edge) (inUse : graph.isInUse edge.2 = true) :
    (graph.sweptEdges edges).find? (·.1 = step) = some edge := by
  unfold sweptEdges
  split
  · rename_i sweeps
    clear sweeps
    induction edges with
    | nil => contradiction
    | cons head rest inductionHypothesis =>
        rw [List.find?_cons] at found
        by_cases isStep : head.1 = step
        · simp only [isStep, decide_true] at found
          cases found
          simp [inUse, isStep]
        · simp only [isStep, decide_false] at found
          rw [List.filter_cons]
          split
          · rw [List.find?_cons]
            simp only [isStep, decide_false]
            exact inductionHypothesis found
          · exact inductionHypothesis found
  · exact found

/-- The memory of another step is not forgotten. -/
private theorem find?_rememberEdge {edges : List (Transition × ShapeId)}
    {step other : Transition} {target : ShapeId} {edge : Transition × ShapeId}
    (different : other ≠ step) (found : edges.find? (·.1 = step) = some edge) :
    (rememberEdge other target edges).find? (·.1 = step) = some edge := by
  rw [rememberEdge, forgetEdge_eq_filter, List.find?_cons]
  simp only [different, decide_false]
  rw [List.find?_filter, ← found]
  congr 1
  funext candidate
  by_cases isStep : candidate.1 = step
  · simp [isStep, Ne.symm different]
  · simp [isStep]

/-- A step keeps where other steps lead, if that is in use. -/
theorem Leads.derive {graph : ShapeGraph} {id target : ShapeId} {step : Transition}
    (leads : graph.Leads id step target) (inRange : id < graph.size)
    (inUse : graph.isInUse target = true) (number : Nat) {source : ShapeId}
    {other : Transition} (missing : graph.next? source other = none) :
    (graph.derive number source other).Leads id step target := by
  have known := leads.next?_eq inUse
  unfold Leads at leads ⊢
  rw [(extends_derive graph number source other).layout_eq id inRange]
  split at leads
  · rwa [if_pos ‹_›]
  · rw [if_neg ‹_›, edge?, shape_derive_old graph number source other inRange]
    split
    · rename_i same
      subst same
      have different : other ≠ step := by
        rintro rfl
        rw [known] at missing
        cases missing
      exact find?_rememberEdge different (find?_sweptEdges leads inUse)
    · exact leads

/-- A step that was just made is remembered. -/
theorem leads_derive {graph : ShapeGraph} {id : ShapeId} {step : Transition}
    (inRange : id < graph.size) (number : Nat) (missing : graph.next? id step = none) :
    (graph.derive number id step).Leads id step graph.size := by
  have changes : ¬ (graph.layout id).isUnchangedBy step = true := by
    intro unchanged
    rw [next?, if_pos unchanged] at missing
    cases missing
  unfold Leads
  rw [(extends_derive graph number id step).layout_eq id inRange, if_neg changes, edge?,
    shape_derive_old graph number id step inRange, if_pos rfl, rememberEdge]
  simp

theorem RemembersOnce.derive {graph : ShapeGraph} (once : graph.RemembersOnce) (number : Nat)
    (source : ShapeId) (step : Transition) :
    (graph.derive number source step).RemembersOnce := by
  intro id
  rcases Nat.lt_trichotomy id graph.size with old | new | outside
  · rw [shape_derive_old graph number source step old]
    split
    · rw [rememberEdge, forgetEdge_eq_filter, List.map_cons, List.nodup_cons]
      refine ⟨?_, ?_⟩
      · intro again
        obtain ⟨edge, member, isStep⟩ := List.mem_map.mp again
        simp [isStep] at member
      · refine List.Sublist.nodup (List.Sublist.map _ ?_) (once source)
        refine List.filter_sublist.trans ?_
        unfold sweptEdges
        split
        · exact List.filter_sublist
        · exact List.Sublist.refl _
    · exact once id
  · subst new
    rw [shape_derive_new]
    exact List.nodup_nil
  · have absent : (graph.derive number source step).shape id = default := by
      rw [shape, Array.getD_eq_getD_getElem?, Array.getElem?_eq_none]
      · rfl
      · have bound := size_derive graph number source step
        rw [size] at bound
        omega
    rw [absent]
    exact List.nodup_nil

end ShapeGraph

/-! ### Pools -/

/-- A store and the shapes that it makes. -/
structure ShapePool where
  store : ShapeStore
  graph : ShapeGraph

namespace ShapePool

/-- A store with nothing but its root shape. -/
def start (config : Config) : ShapePool :=
  let (graph, root) := ShapeGraph.addRoot {}
  ⟨{ config := config, root := root }, graph⟩

/-- The shape that the store gives for a step. -/
def target (pool : ShapePool) (shape : ShapeId) (step : Transition) : ShapeId :=
  (pool.store.transition pool.graph shape step).2.2

end ShapePool

/-- One thing that happens to the shapes of a store. -/
inductive ShapeMove where
  /-- A step is taken, and its result retained. -/
  | take (shape : ShapeId) (step : Transition)
  | retain (shape : ShapeId)
  | release (shape : ShapeId)
deriving DecidableEq

namespace ShapeMove

def run (pool : ShapePool) : ShapeMove → ShapePool
  | take shape step =>
      let (store, graph, target) := pool.store.transition pool.graph shape step
      ⟨store, graph.retain target⟩
  | retain shape => { pool with graph := pool.graph.retain shape }
  | release shape => { pool with graph := pool.graph.release shape }

/-- The shape where a step is taken exists. -/
def Starts (pool : ShapePool) : ShapeMove → Prop
  | take shape _ => shape < pool.graph.size
  | _ => True

instance (pool : ShapePool) (move : ShapeMove) : Decidable (move.Starts pool) := by
  cases move <;> unfold Starts <;> infer_instance

end ShapeMove

namespace ShapePool

variable {pool : ShapePool}

/-- What holds of the shapes of a store at any time. -/
structure Canonical (pool : ShapePool) : Prop where
  faithful : pool.graph.Faithful
  once : pool.graph.RemembersOnce

theorem canonical_start (config : Config) : (start config).Canonical where
  faithful := ShapeGraph.faithful_empty.addRoot
  once := by
    intro id
    cases id <;> exact List.nodup_nil

/-! ### One move -/

/-- After a step, its memory is as the store left it. -/
theorem shapes_take (pool : ShapePool) (shape : ShapeId) (step : Transition) :
    ((ShapeMove.take shape step).run pool).graph.shapes =
      (pool.store.transition pool.graph shape step).2.1.shapes :=
  ShapeGraph.shapes_retain _ _

theorem Canonical.run (canonical : pool.Canonical) (move : ShapeMove) :
    (move.run pool).Canonical := by
  cases move with
  | take shape step =>
      refine ⟨?_, ?_⟩
      · exact (pool.store.transition_keeps canonical.faithful shape step).1.congr
          (shapes_take pool shape step)
      · refine ShapeGraph.RemembersOnce.congr ?_ (shapes_take pool shape step)
        unfold ShapeStore.transition
        split
        · exact canonical.once
        · exact canonical.once.derive _ shape step
  | retain shape =>
      have same := ShapeGraph.shapes_retain pool.graph shape
      exact ⟨canonical.faithful.congr same, canonical.once.congr same⟩
  | release shape =>
      have same := ShapeGraph.shapes_release pool.graph shape
      exact ⟨canonical.faithful.congr same, canonical.once.congr same⟩

/-- No move changes the layout of a shape. -/
theorem Canonical.extends_run (canonical : pool.Canonical) (move : ShapeMove) :
    (move.run pool).graph.Extends pool.graph := by
  cases move with
  | take shape step =>
      exact (ShapeGraph.Extends.of_shapes_eq (shapes_take pool shape step)).trans
        (pool.store.transition_keeps canonical.faithful shape step).2
  | retain shape => exact .of_shapes_eq (ShapeGraph.shapes_retain _ _)
  | release shape => exact .of_shapes_eq (ShapeGraph.shapes_release _ _)

/-- A step leads where it led before, as long as that is in use. -/
theorem leads_run {shape child : ShapeId} {step : Transition}
    (leads : pool.graph.Leads shape step child) (inRange : shape < pool.graph.size)
    (inUse : pool.graph.isInUse child = true) (move : ShapeMove) :
    (move.run pool).graph.Leads shape step child := by
  cases move with
  | take source other =>
      refine ShapeGraph.Leads.congr ?_ (shapes_take pool source other)
      unfold ShapeStore.transition
      split
      · exact leads
      · rename_i missing
        exact leads.derive inRange inUse _ missing
  | retain other => exact leads.congr (ShapeGraph.shapes_retain _ _)
  | release other => exact leads.congr (ShapeGraph.shapes_release _ _)

/-- A step that was taken leads to the shape that the store gave. -/
theorem leads_take {shape : ShapeId} (inRange : shape < pool.graph.size) (step : Transition) :
    ((ShapeMove.take shape step).run pool).graph.Leads shape step (pool.target shape step) := by
  refine ShapeGraph.Leads.congr ?_ (shapes_take pool shape step)
  unfold target ShapeStore.transition
  split
  · exact ShapeGraph.leads_of_next? ‹_›
  · rename_i missing
    exact ShapeGraph.leads_derive inRange _ missing

/-- Where a step leads to a shape in use, the store makes no shape. -/
theorem transition_of_leads {shape child : ShapeId} {step : Transition}
    (leads : pool.graph.Leads shape step child) (inUse : pool.graph.isInUse child = true) :
    pool.store.transition pool.graph shape step = (pool.store, pool.graph, child) := by
  rw [ShapeStore.transition, leads.next?_eq inUse]

/-! ### Runs of moves -/

/-- The pool after the first moves of a list. -/
def atMoment (pool : ShapePool) (moves : List ShapeMove) (moment : Nat) : ShapePool :=
  (moves.take moment).foldl ShapeMove.run pool

/-- Every step is taken at a shape that exists. -/
def Admits (pool : ShapePool) (moves : List ShapeMove) : Prop :=
  ∀ (moment : Nat) (move : ShapeMove), moves[moment]? = some move →
    move.Starts (pool.atMoment moves moment)

variable {moves : List ShapeMove}

theorem atMoment_succ {moment : Nat} {move : ShapeMove} (found : moves[moment]? = some move) :
    pool.atMoment moves (moment + 1) = move.run (pool.atMoment moves moment) := by
  rw [atMoment, List.take_add_one, found, List.foldl_append]
  rfl

theorem atMoment_end {moment : Nat} (ended : moves[moment]? = none) :
    pool.atMoment moves (moment + 1) = pool.atMoment moves moment := by
  rw [atMoment, List.take_add_one, ended, Option.toList_none, List.append_nil, atMoment]

theorem Canonical.atMoment (canonical : pool.Canonical) (moment : Nat) :
    (pool.atMoment moves moment).Canonical := by
  induction moment with
  | zero => exact canonical
  | succ moment inductionHypothesis =>
      cases found : moves[moment]? with
      | none => rwa [atMoment_end found]
      | some move =>
          rw [atMoment_succ found]
          exact inductionHypothesis.run move

theorem Canonical.extends_later (canonical : pool.Canonical) {earlier later : Nat}
    (order : earlier ≤ later) :
    (pool.atMoment moves later).graph.Extends (pool.atMoment moves earlier).graph := by
  induction later, order using Nat.le_induction with
  | base => exact .refl _
  | succ later _ inductionHypothesis =>
      cases found : moves[later]? with
      | none => rwa [atMoment_end found]
      | some move =>
          rw [atMoment_succ found]
          exact ((canonical.atMoment later).extends_run move).trans inductionHypothesis

/-- The shape is in use at every moment behind the one up to the other. -/
def KeptBetween (pool : ShapePool) (moves : List ShapeMove) (shape : ShapeId)
    (earlier later : Nat) : Prop :=
  ∀ moment, earlier < moment → moment ≤ later →
    (pool.atMoment moves moment).graph.isInUse shape = true

/-- A step that was taken leads to the same shape as long as that is kept. -/
theorem Canonical.leads_later (canonical : pool.Canonical) {earlier later : Nat}
    (order : earlier < later) {shape : ShapeId} {step : Transition}
    (taken : moves[earlier]? = some (.take shape step))
    (inRange : shape < (pool.atMoment moves earlier).graph.size)
    (kept : pool.KeptBetween moves ((pool.atMoment moves earlier).target shape step) earlier
      later) :
    (pool.atMoment moves later).graph.Leads shape step
      ((pool.atMoment moves earlier).target shape step) := by
  induction later, order using Nat.le_induction with
  | base =>
      rw [atMoment_succ taken]
      exact leads_take inRange step
  | succ later behind inductionHypothesis =>
      have led := inductionHypothesis fun moment after before =>
        kept moment after (Nat.le_succ_of_le before)
      cases found : moves[later]? with
      | none => rwa [atMoment_end found]
      | some move =>
          rw [atMoment_succ found]
          have grown : (pool.atMoment moves later).graph.Extends
              (pool.atMoment moves earlier).graph :=
            canonical.extends_later (Nat.le_trans (Nat.le_succ earlier) behind)
          exact leads_run led (Nat.lt_of_lt_of_le inRange grown.size_le)
            (kept later behind (Nat.le_succ later)) move

/-- The same step at the same shape leads to the same shape, if that is kept. -/
theorem Canonical.transition_later (canonical : pool.Canonical) {earlier later : Nat}
    (order : earlier < later) {shape : ShapeId} {step : Transition}
    (taken : moves[earlier]? = some (.take shape step))
    (inRange : shape < (pool.atMoment moves earlier).graph.size)
    (kept : pool.KeptBetween moves ((pool.atMoment moves earlier).target shape step) earlier
      later) :
    let now := pool.atMoment moves later
    now.store.transition now.graph shape step =
      (now.store, now.graph, (pool.atMoment moves earlier).target shape step) :=
  transition_of_leads (canonical.leads_later order taken inRange kept)
    (kept later order (Nat.le_refl _))

/-! ### Paths -/

/-- A step that somebody took, when, and the shape that came of it. -/
structure Visit where
  moment : Nat
  step : Transition
  shape : ShapeId

/-- The visits of somebody who takes one step behind the other. -/
inductive IsPath (pool : ShapePool) (moves : List ShapeMove) : ShapeId → List Visit → Prop
  | nil (shape : ShapeId) : IsPath pool moves shape []
  | cons {shape : ShapeId} {visit : Visit} {rest : List Visit}
      (taken : moves[visit.moment]? = some (.take shape visit.step))
      (result : (pool.atMoment moves visit.moment).target shape visit.step = visit.shape)
      (behind : ∀ next ∈ rest, visit.moment < next.moment)
      (path : IsPath pool moves visit.shape rest) : IsPath pool moves shape (visit :: rest)

/-- Two visits by the same step. The shape of the one that is first is kept until the
other. -/
structure Visit.Meets (pool : ShapePool) (moves : List ShapeMove) (left right : Visit) :
    Prop where
  step_eq : left.step = right.step
  left_kept : pool.KeptBetween moves left.shape left.moment right.moment
  right_kept : pool.KeptBetween moves right.shape right.moment left.moment

/-- Paths that meet step by step are the same. -/
theorem Canonical.shapes_eq_of_meets (canonical : pool.Canonical) (admits : pool.Admits moves)
    {start : ShapeId} {left right : List Visit} (leftPath : pool.IsPath moves start left)
    (rightPath : pool.IsPath moves start right)
    (meet : List.Forall₂ (Visit.Meets pool moves) left right) :
    left.map Visit.shape = right.map Visit.shape := by
  induction meet generalizing start with
  | nil => rfl
  | @cons first second left right meets _ inductionHypothesis =>
      cases leftPath with
      | cons taken result _ leftPath =>
      cases rightPath with
      | cons taken' result' _ rightPath =>
          obtain ⟨step_eq, kept, kept'⟩ := meets
          have inRange : start < (pool.atMoment moves first.moment).graph.size :=
            admits _ _ taken
          have inRange' : start < (pool.atMoment moves second.moment).graph.size :=
            admits _ _ taken'
          have same : first.shape = second.shape := by
            rcases Nat.lt_trichotomy first.moment second.moment with before | sameTime | after
            · rw [← result] at kept
              have again := canonical.transition_later before taken inRange kept
              rw [← result, ← result', ← step_eq]
              exact (congrArg (·.2.2) again).symm
            · rw [← result, ← result', step_eq, sameTime]
            · rw [← result'] at kept'
              have again := canonical.transition_later after taken' inRange' kept'
              rw [← result, ← result', step_eq]
              exact congrArg (·.2.2) again
          rw [List.map_cons, List.map_cons, same,
            inductionHypothesis (same ▸ leftPath) rightPath]

/-- Whatever happens to the shapes of a store: no layout ever changes. A step that changes
nothing ends where it starts, and any other one at the layout after it. A step that has led to
a shape leads there again, and nothing is made for it, as long as the shape has stayed in use;
so a shape never remembers two targets of a step. And two holders who take the same steps from
the same shape get the same shapes, if whoever is first with a step keeps what comes of it in
use until the other is there. -/
theorem run_canonical (config : Config) (moves : List ShapeMove)
    (admits : (start config).Admits moves) :
    let now := (start config).atMoment moves
    (∀ earlier later shape, earlier ≤ later → shape < (now earlier).graph.size →
      (now later).graph.layout shape = (now earlier).graph.layout shape) ∧
    (∀ moment shape step, shape < (now moment).graph.size →
      let after := (now moment).store.transition (now moment).graph shape step
      if ((now moment).graph.layout shape).isUnchangedBy step then after.2.2 = shape
      else after.2.1.layout after.2.2 = ((now moment).graph.layout shape).apply step) ∧
    (∀ earlier later shape step, earlier < later → moves[earlier]? = some (.take shape step) →
      let child := (now earlier).target shape step
      (start config).KeptBetween moves child earlier later →
        (now later).store.transition (now later).graph shape step =
          ((now later).store, (now later).graph, child)) ∧
    (∀ moment shape step child other,
      (step, child) ∈ ((now moment).graph.shape shape).edges →
        (step, other) ∈ ((now moment).graph.shape shape).edges → child = other) ∧
    ∀ shape left right, (start config).IsPath moves shape left →
      (start config).IsPath moves shape right →
        List.Forall₂ (Visit.Meets (start config) moves) left right →
          left.map Visit.shape = right.map Visit.shape := by
  have canonical := canonical_start config
  refine ⟨?_, ?_, ?_, ?_, ?_⟩
  · intro earlier later shape order inRange
    exact (canonical.extends_later order).layout_eq shape inRange
  · intro moment shape step inRange
    have now : ((start config).atMoment moves moment).Canonical := canonical.atMoment moment
    have reached := ShapeStore.transition_target
      ((start config).atMoment moves moment).store now.faithful shape step inRange
    simp only
    split
    · rename_i unchanged
      rw [ShapeStore.transition, ShapeGraph.next?, if_pos unchanged]
    · rename_i changes
      rw [reached.2, Layout.after, if_neg changes]
  · intro earlier later shape step order taken child kept
    exact canonical.transition_later order taken (admits _ _ taken) kept
  · intro moment shape step child other member member'
    have now : ((start config).atMoment moves moment).Canonical := canonical.atMoment moment
    have once := now.once shape
    have same := List.inj_on_of_nodup_map once member member' rfl
    exact (Prod.mk.inj same).2
  · intro shape left right leftPath rightPath meet
    exact canonical.shapes_eq_of_meets admits leftPath rightPath meet

/-- A property is added to the root, another one is added and given up, and the first shape
is found again. -/
theorem run_canonical_again :
    let add := fun index => Transition.add (.ofNat index) .assigned .data
    let moves : List ShapeMove := [.take 0 (add 0), .take 0 (add 1), .release 2]
    let pool := (start {}).atMoment moves 3
    pool.store.created = 3 ∧ pool.graph.isInUse 2 = false ∧
      pool.store.transition pool.graph 0 (add 0) = (pool.store, pool.graph, 1) := by
  intro add moves pool
  have admits : (start {}).Admits moves := by
    intro moment move found
    match moment with
    | 0 | 1 | 2 =>
        cases found
        decide
    | moment + 3 => cases found
  have kept : (start {}).KeptBetween moves 1 0 3 := by
    intro moment after before
    obtain rfl | rfl | rfl : moment = 1 ∨ moment = 2 ∨ moment = 3 := by omega
    all_goals decide
  refine ⟨by decide, by decide, ?_⟩
  exact (run_canonical {} moves admits).2.2.1 0 3 0 (add 0) (by decide) rfl kept

end ShapePool

end ObjectModel
