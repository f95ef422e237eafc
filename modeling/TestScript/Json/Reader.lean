import TestScript.Json.Lexer

namespace TestScript.Json

/-- An array or object that is still open, its contents last one first. An object waits for the
value of a key. -/
inductive Frame where
  | array (items : List Json)
  | object (members : List (Option String × Json)) (key : Option String)

/-- What may come next. -/
inductive Place where
  | value
  | firstItem
  | firstKey
  | nextKey (members : List (Option String × Json))
  | colon (members : List (Option String × Json)) (key : Option String)
  | after (value : Json)

/-- The arrays and objects that are open, the innermost first, and what may come next. -/
structure Reader where
  frames : List Frame := []
  place : Place := .value

namespace Reader

/-- Takes the first token of a value. -/
def start? (frames : List Frame) : Token → Option Reader
  | .null => some ⟨frames, .after .null⟩
  | .bool value => some ⟨frames, .after (.bool value)⟩
  | .number numeral => some ⟨frames, .after (.number numeral)⟩
  | .string text => some ⟨frames, .after (.string text)⟩
  | .openArray => some ⟨frames, .firstItem⟩
  | .openObject => some ⟨frames, .firstKey⟩
  | _ => none

/-- Takes the key of a member. -/
def key? (frames : List Frame) (members : List (Option String × Json)) : Token → Option Reader
  | .string key => some ⟨frames, .colon members key⟩
  | _ => none

/-- Takes the token after a value: the end of what holds it, or a comma. -/
def close? (value : Json) : List Frame → Token → Option Reader
  | .array items :: frames, .comma => some ⟨.array (value :: items) :: frames, .value⟩
  | .array items :: frames, .closeArray => some ⟨frames, .after (.array (value :: items).reverse)⟩
  | .object members key :: frames, .comma => some ⟨frames, .nextKey ((key, value) :: members)⟩
  | .object members key :: frames, .closeObject =>
    some ⟨frames, .after (.object ((key, value) :: members).reverse)⟩
  | _, _ => none

def step? (r : Reader) (token : Token) : Option Reader :=
  match r.place with
  | .value => start? r.frames token
  | .firstItem =>
    if token = .closeArray then some ⟨r.frames, .after (.array [])⟩
    else start? (.array [] :: r.frames) token
  | .firstKey =>
    if token = .closeObject then some ⟨r.frames, .after (.object [])⟩
    else key? r.frames [] token
  | .nextKey members => key? r.frames members token
  | .colon members key =>
    if token = .colon then some ⟨.object members key :: r.frames, .value⟩ else none
  | .after value => close? value r.frames token

/-- The value, once nothing is open any more. -/
def finish? (r : Reader) : Option Json :=
  match r.frames, r.place with
  | [], .after value => some value
  | _, _ => none

section

variable (frames : List Frame) (members : List (Option String × Json)) (key : Option String)
  (value : Json) (token : Token)

@[simp] theorem step?_value : step? ⟨frames, .value⟩ token = start? frames token := rfl

@[simp] theorem step?_firstItem :
    step? ⟨frames, .firstItem⟩ token =
      if token = .closeArray then some ⟨frames, .after (.array [])⟩
      else start? (.array [] :: frames) token := rfl

@[simp] theorem step?_firstKey :
    step? ⟨frames, .firstKey⟩ token =
      if token = .closeObject then some ⟨frames, .after (.object [])⟩
      else key? frames [] token := rfl

@[simp] theorem step?_nextKey :
    step? ⟨frames, .nextKey members⟩ token = key? frames members token := rfl

@[simp] theorem step?_colon :
    step? ⟨frames, .colon members key⟩ token =
      if token = .colon then some ⟨.object members key :: frames, .value⟩ else none := rfl

@[simp] theorem step?_after :
    step? ⟨frames, .after value⟩ token = close? value frames token := rfl

end

end Reader

def ofTokens? (tokens : List Token) : Option Json :=
  (tokens.foldlM Reader.step? {}).bind Reader.finish?

def parse? (text : String) : Option Json :=
  (lex? text.toList).bind ofTokens?

end TestScript.Json
