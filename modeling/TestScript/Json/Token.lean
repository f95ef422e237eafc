import TestScript.Json.Value

namespace TestScript.Json

inductive Token where
  | openArray
  | closeArray
  | openObject
  | closeObject
  | comma
  | colon
  | null
  | bool (value : Bool)
  | number (numeral : String)
  | string (text : Option String)
  deriving DecidableEq, Repr

mutual

def tokens : Json → List Token
  | .null => [.null]
  | .bool value => [.bool value]
  | .number numeral => [.number numeral]
  | .string text => [.string text]
  | .array [] => [.openArray, .closeArray]
  | .array (value :: items) => .openArray :: (value.tokens ++ itemTokens items ++ [.closeArray])
  | .object [] => [.openObject, .closeObject]
  | .object ((key, value) :: members) =>
    .openObject :: .string key :: .colon :: (value.tokens ++ memberTokens members ++ [.closeObject])

/-- The items that follow the first one, each after its comma. -/
def itemTokens : List Json → List Token
  | [] => []
  | value :: items => .comma :: (value.tokens ++ itemTokens items)

/-- The members that follow the first one, each after its comma. -/
def memberTokens : List (Option String × Json) → List Token
  | [] => []
  | (key, value) :: members =>
    .comma :: .string key :: .colon :: (value.tokens ++ memberTokens members)

end

end TestScript.Json
