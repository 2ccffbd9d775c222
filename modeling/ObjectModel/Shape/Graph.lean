import ObjectModel.Shape.Layout

/-!
Contract: shared layouts, found through a graph of remembered steps.

A shape is a layout with an identity. It remembers which shape a step from it led to,
and the same step leads there again while that shape is in use. A shape is in use
while it has a user: somebody outside who retained it, or a shape in use that was
derived from it. The memory itself uses nothing.

Memories of shapes out of use are swept out when the table of a shape grows past a
power of two.

Does not own: who makes and numbers shapes (`ShapeStore`), who uses them (`Heap`).
-/

namespace ObjectModel

/-- Position of a shape in its graph, in order of creation. -/
abbrev ShapeId := Nat

structure Shape where
  /-- The number that the maker of the shape gave it. -/
  number : Nat := 0
  parent : Option ShapeId := none
  layout : Layout := .empty
  /-- Remembered steps, at most one for each transition. -/
  edges : List (Transition × ShapeId) := []
deriving DecidableEq, Inhabited

/-- All shapes, whoever made them. -/
structure ShapeGraph where
  shapes : Array Shape := #[]
  /-- How many users each shape has. -/
  users : Array Nat := #[]
deriving DecidableEq, Inhabited

/-- Number of remembered steps from which those out of use are swept. -/
def sweepLimit : Nat := 16

/-- The edges without one for `step`. Mostly there is none, and nothing is copied. -/
def forgetEdge (step : Transition) (edges : List (Transition × ShapeId)) :
    List (Transition × ShapeId) :=
  if edges.any (·.1 = step) then edges.filter (·.1 ≠ step) else edges

theorem forgetEdge_eq_filter (step : Transition) (edges : List (Transition × ShapeId)) :
    forgetEdge step edges = edges.filter (·.1 ≠ step) := by
  unfold forgetEdge
  split
  · rfl
  · rename_i absent
    symm
    rw [List.filter_eq_self]
    intro edge member
    simp only [List.any_eq_true, not_exists, not_and] at absent
    simpa using absent edge member

/-- The edges with one for `step`, in place of an older one. -/
def rememberEdge (step : Transition) (target : ShapeId)
    (edges : List (Transition × ShapeId)) : List (Transition × ShapeId) :=
  (step, target) :: forgetEdge step edges

namespace ShapeGraph

def size (graph : ShapeGraph) : Nat :=
  graph.shapes.size

def shape (graph : ShapeGraph) (id : ShapeId) : Shape :=
  graph.shapes.getD id default

def layout (graph : ShapeGraph) (id : ShapeId) : Layout :=
  (graph.shape id).layout

def userCount (graph : ShapeGraph) (id : ShapeId) : Nat :=
  graph.users.getD id 0

def isInUse (graph : ShapeGraph) (id : ShapeId) : Bool :=
  graph.userCount id ≠ 0

/-- Retains a shape, and if it had no user its parent, and so on for at most `steps`
shapes. -/
def retainWithin : (steps : Nat) → ShapeId → ShapeGraph → ShapeGraph
  | 0, _, graph => graph
  | steps + 1, id, graph =>
      let next := if graph.isInUse id then none else (graph.shape id).parent
      let graph := { graph with users := graph.users.modify id (· + 1) }
      match next with
      | some parent => retainWithin steps parent graph
      | none => graph

/-- One more user for a shape. By its first user a shape becomes a user of its
parent. A shape is younger than its parent, which bounds the steps. -/
def retain (graph : ShapeGraph) (id : ShapeId) : ShapeGraph :=
  retainWithin (id + 1) id graph

/-- Releases a shape, and if no user is left its parent, and so on for at most `steps`
shapes. -/
def releaseWithin : (steps : Nat) → ShapeId → ShapeGraph → ShapeGraph
  | 0, _, graph => graph
  | steps + 1, id, graph =>
      let next := if graph.userCount id = 1 then (graph.shape id).parent else none
      let graph := { graph with users := graph.users.modify id (· - 1) }
      match next with
      | some parent => releaseWithin steps parent graph
      | none => graph

/-- One user of a shape gone. With its last user a shape ceases to use its parent. -/
def release (graph : ShapeGraph) (id : ShapeId) : ShapeGraph :=
  releaseWithin (id + 1) id graph

/-- A new shape without parent: empty, with the number 0, and used by its maker. -/
def addRoot (graph : ShapeGraph) : ShapeGraph × ShapeId :=
  let made := graph.size
  ({ shapes := graph.shapes.push {}, users := graph.users.push 1 }, made)

/-- The shape that a step leads to without making one: the shape itself if the step
changes nothing, else the remembered one if it is in use. -/
def next? (graph : ShapeGraph) (id : ShapeId) (step : Transition) : Option ShapeId :=
  if (graph.layout id).isUnchangedBy step then some id
  else
    ((graph.shape id).edges.find? (·.1 = step)).bind fun edge =>
      if graph.isInUse edge.2 then some edge.2 else none

/-- The edges to keep before one more is added: all of them, or at each power of
two from `sweepLimit` on those that lead to shapes in use. -/
def sweptEdges (graph : ShapeGraph) (edges : List (Transition × ShapeId)) :
    List (Transition × ShapeId) :=
  if sweepLimit ≤ edges.length && 1 <<< edges.length.log2 = edges.length then
    edges.filter fun edge => graph.isInUse edge.2
  else edges

/-- A new shape one step from `id`, remembered there. It has no user yet. -/
def derive (graph : ShapeGraph) (number : Nat) (id : ShapeId) (step : Transition) :
    ShapeGraph :=
  let child : Shape :=
    { number := number, parent := some id, layout := (graph.layout id).apply step }
  let remembered := rememberEdge step graph.size (graph.sweptEdges (graph.shape id).edges)
  { shapes :=
      (graph.shapes.modify id fun shape => { shape with edges := remembered }).push child
    users := graph.users.push 0 }

end ShapeGraph

end ObjectModel
