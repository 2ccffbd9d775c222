/-!
Contract: a value that is changed in place, one user at a time.

While a cell is lent to a writer nobody else sees its value; its display then says
so instead.
-/

namespace ObjectModel

structure Cell (α : Type) where
  value : α
  isLent : Bool := false

namespace Cell

variable {α : Type}

/-- The cell with a new value, and the value it had. -/
def replace (cell : Cell α) (value : α) : Cell α × α :=
  ({ cell with value := value }, cell.value)

/-- The cell as its writer leaves it visible to others. -/
def lent (cell : Cell α) : Cell α :=
  { cell with isLent := true }

def display (valueText : α → String) (cell : Cell α) : String :=
  let content := if cell.isLent then "\"<borrowed>\"" else valueText cell.value
  "ObjectCell \x7b value: " ++ content ++ " \x7d"

end Cell

end ObjectModel
