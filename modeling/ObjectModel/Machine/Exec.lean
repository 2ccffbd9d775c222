import ObjectModel.Heap.Ordinary

/-!
Contract: computations on a heap that may run user code.

A computation changes a `World`: the heap, the depth of nested proxy dispatch, and
the state of the user code, whose type is left open. It ends with a value, with an
error of the language, or out of fuel. An error leaves the world as it was reached;
nothing is undone.
-/

namespace ObjectModel

/-- How a computation fails: an error that user code can catch, or the end of its
fuel, which nothing catches. -/
inductive Fault where
  | error (error : Error)
  | outOfFuel
deriving DecidableEq

/-- What computations change. `client` belongs to the user code. -/
structure World (σ : Type) where
  heap : Heap
  /-- How many proxies are dispatching into each other now. -/
  depth : Nat := 0
  client : σ

abbrev Exec (σ α : Type) := EStateM Fault (World σ) α

namespace Exec

variable {σ α : Type}

def raise (error : Error) : Exec σ α := throw (.error error)

def typeError (fault : TypeFault) : Exec σ α := raise (.type fault)

def violation (violation : Violation) : Exec σ α := typeError (.trapViolation violation)

def outOfFuel : Exec σ α := throw .outOfFuel

def heap : Exec σ Heap := return (← get).heap

/-- A step of the heap that runs no user code. -/
def onHeap (step : Heap → Heap × α) : Exec σ α
  | ⟨heap, depth, client⟩ =>
      match step heap with
      | (heap, answer) => .ok answer ⟨heap, depth, client⟩

/-- A step of the heap that may fail and then raises a type error. -/
def onHeapOrRaise (step : Heap → Heap × Except TypeFault α) : Exec σ α := do
  match ← onHeap step with
  | .ok answer => return answer
  | .error fault => typeError fault

def changeHeap (step : Heap → Heap) : Exec σ Unit :=
  onHeap fun heap => (step heap, ())

/-- The error of a computation as its answer. Running out of fuel is not caught. -/
def attempt (computation : Exec σ α) : Exec σ (Except Error α) := fun world =>
  match computation world with
  | .ok answer world => .ok (.ok answer) world
  | .error (.error error) world => .ok (.error error) world
  | .error .outOfFuel world => .error .outOfFuel world

/-- An error answer raised again. -/
def ofExcept : Except Error α → Exec σ α
  | .ok answer => return answer
  | .error error => raise error

/-- One change of the world when a computation ends, however it ends. -/
def andFinally (computation : Exec σ α) (close : World σ → World σ) : Exec σ α :=
  fun world =>
    match computation world with
    | .ok answer world => .ok answer (close world)
    | .error fault world => .error fault (close world)

/-- A computation with objects in hand: they are held until it ends. -/
def holding (objects : List ObjectId) (computation : Exec σ α) : Exec σ α := do
  changeHeap (·.holdAll objects)
  computation.andFinally fun world =>
    { world with heap := world.heap.releaseAll objects }

/-- One level of proxy dispatch by `proxy`. It is refused at the nesting limit of the
proxy's store, and given back when the computation ends. -/
def inProxyFrame (proxy : ObjectId) (computation : Exec σ α) : Exec σ α := fun world =>
  if world.depth < (world.heap.config proxy).maxProxyDepth then
    andFinally computation (fun world => { world with depth := world.depth - 1 })
      { world with depth := world.depth + 1 }
  else .error (.error (.range .nestingLimit)) world

end Exec

end ObjectModel
