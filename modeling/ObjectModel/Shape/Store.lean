import ObjectModel.Config
import ObjectModel.Shape.Graph

/-!
Contract: makers of shapes.

A store has a configuration, the empty shape that its objects start from, and a
count of the shapes it made. It numbers its shapes in order of creation; the root
is 0. A step may start at a shape of any store: the shape where it starts remembers
it, and the store that takes it makes and numbers the result.
-/

namespace ObjectModel

structure ShapeStore where
  config : Config
  root : ShapeId
  /-- Number of shapes made so far, the root included. -/
  created : Nat := 1
deriving DecidableEq, Inhabited

/-- The shape one step from `id`. If none is known and in use, the store makes it. -/
def ShapeStore.transition (store : ShapeStore) (graph : ShapeGraph) (id : ShapeId)
    (step : Transition) : ShapeStore × ShapeGraph × ShapeId :=
  match graph.next? id step with
  | some target => (store, graph, target)
  | none =>
      let made := graph.size
      ({ store with created := store.created + 1 },
        graph.derive store.created id step, made)

end ObjectModel
