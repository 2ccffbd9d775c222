import ObjectModel.Machine.Call

/-!
Contract: descriptions of properties as objects.

`readDescription` reads a description from an object by its fields, which may be
inherited, computed by getters or made up by a proxy. Each field is read only if
the object has it, and its value is in hand while the others are read.
`Heap.describe` is the other direction.
-/

namespace ObjectModel.Machine

variable {σ : Type} (dispatch : Dispatch σ)

/-- One field of a description, absent if the object does not have it. -/
def readField (id : ObjectId) (name : String) : Exec σ (Option Value) := do
  let key := PropertyKey.ofString name
  if ← dispatch (.has id key) then
    return some ((← dispatch (.getValue id key)).getD .undefined)
  else return none

/-- One field read, and held while the rest is done. -/
def withField {α : Type} (id : ObjectId) (name : String)
    (rest : Option Value → Exec σ α) : Exec σ α := do
  let field ← readField dispatch id name
  Exec.holding (field.toList.flatMap Value.references) (rest field)

/-- An accessor field must be `undefined` or callable. -/
def checkAccessor (role : AccessorRole) (field : Option Value) : Exec σ Unit := do
  match field with
  | none => return ()
  | some value =>
      if value.isUndefined || (← Exec.heap).isFunction value then return ()
      else Exec.typeError (.accessorNotFunction role value)

/-- ToPropertyDescriptor. The fields are read in one pass; then the accessor
functions are checked, and at last that data and accessor fields are not mixed. -/
def readDescription (value : Value) : Exec σ Descriptor := do
  match value with
  | .object id =>
      withField dispatch id "value" fun stored => do
      withField dispatch id "writable" fun writable => do
      withField dispatch id "get" fun getter => do
      withField dispatch id "set" fun setter => do
      withField dispatch id "enumerable" fun enumerable => do
      withField dispatch id "configurable" fun configurable => do
      checkAccessor .getter getter
      checkAccessor .setter setter
      let descriptor : Descriptor :=
        { value := stored
          writable := writable.map Value.toBoolean
          get := getter
          set := setter
          enumerable := enumerable.map Value.toBoolean
          configurable := configurable.map Value.toBoolean }
      if descriptor.isMixed then Exec.typeError .mixedDescription
      else return descriptor
  | _ => Exec.typeError .descriptionNotObject

end ObjectModel.Machine
