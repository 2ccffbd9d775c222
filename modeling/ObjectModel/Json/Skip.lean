import ObjectModel.Json.Token

/-!
Contract: passing over one JSON value of any depth.
-/

namespace ObjectModel.Json

/-- What may come next inside a value. -/
inductive Expected where
  | value
  | valueOrEnd
  | name
  | nameOrEnd
  | colon
  | commaOrEnd
deriving DecidableEq, Repr

/-- What comes first in a container. -/
def Container.first : Container → Expected
  | .array => .valueOrEnd
  | .object => .nameOrEnd

/-- What comes after a comma in a container. -/
def Container.continued : Container → Expected
  | .array => .value
  | .object => .name

/-- What is left after the value that these containers, innermost first, are open
in. -/
def skipFrom? : List Container → Expected → List Token → Option (List Token)
  | [], .commaOrEnd, rest => some rest
  | _, _, [] => none
  | opened, expected, token :: rest =>
      match expected, token, opened with
      | .value, .opening inner, _ | .valueOrEnd, .opening inner, _ =>
          skipFrom? (inner :: opened) inner.first rest
      | .value, .null, _ | .valueOrEnd, .null, _
      | .value, .boolean _, _ | .valueOrEnd, .boolean _, _
      | .value, .number _, _ | .valueOrEnd, .number _, _
      | .value, .string _, _ | .valueOrEnd, .string _, _ =>
          skipFrom? opened .commaOrEnd rest
      | .name, .string _, _ | .nameOrEnd, .string _, _ => skipFrom? opened .colon rest
      | .colon, .colon, _ => skipFrom? opened .value rest
      | .commaOrEnd, .comma, inner :: _ => skipFrom? opened inner.continued rest
      | .valueOrEnd, .closing closed, inner :: outer
      | .nameOrEnd, .closing closed, inner :: outer
      | .commaOrEnd, .closing closed, inner :: outer =>
          if closed = inner then skipFrom? outer .commaOrEnd rest else none
      | _, _, _ => none

/-- What is left after one value. -/
def skip? (tokens : List Token) : Option (List Token) :=
  skipFrom? [] .value tokens

end ObjectModel.Json
