import TestScript.Json.Token

namespace TestScript.Json

/-- A character in a string: the short escape if it has one, a four-digit one for the other
controls, and the character itself for all the rest. -/
def escaped (c : Char) : List Char :=
  if c = '"' then ['\\', '"']
  else if c = '\\' then ['\\', '\\']
  else if c = '\x08' then ['\\', 'b']
  else if c = '\x0c' then ['\\', 'f']
  else if c = '\n' then ['\\', 'n']
  else if c = '\r' then ['\\', 'r']
  else if c = '\t' then ['\\', 't']
  else if c.toNat < 0x20 then
    ['\\', 'u', '0', '0', Nat.digitChar (c.toNat / 16), Nat.digitChar (c.toNat % 16)]
  else [c]

/-- A half of a surrogate pair, which makes a string stand for no text. -/
def loneHalf : List Char := ['\\', 'u', 'd', '8', '0', '0']

def quoted (text : Option String) : List Char :=
  '"' :: (match text with
    | some s => s.toList.flatMap escaped
    | none => loneHalf) ++ ['"']

def Token.spelling : Token → List Char
  | .openArray => ['[']
  | .closeArray => [']']
  | .openObject => ['\x7b']
  | .closeObject => ['\x7d']
  | .comma => [',']
  | .colon => [':']
  | .null => "null".toList
  | .bool true => "true".toList
  | .bool false => "false".toList
  | .number numeral => numeral.toList
  | .string text => quoted text

def lineStart (depth : Nat) : List Char :=
  '\n' :: List.replicate (2 * depth) ' '

/-- The wide form puts every item and member on a line of its own, two spaces further in than what
holds it. These tokens stand `depth` levels deep. An empty array or object stays closed. -/
def wide (depth : Nat) : List Token → List Char
  | [] => []
  | .openArray :: .closeArray :: rest => '[' :: ']' :: wide depth rest
  | .openObject :: .closeObject :: rest => '\x7b' :: '\x7d' :: wide depth rest
  | .openArray :: rest => '[' :: (lineStart (depth + 1) ++ wide (depth + 1) rest)
  | .openObject :: rest => '\x7b' :: (lineStart (depth + 1) ++ wide (depth + 1) rest)
  | .closeArray :: rest => lineStart (depth - 1) ++ ']' :: wide (depth - 1) rest
  | .closeObject :: rest => lineStart (depth - 1) ++ '\x7d' :: wide (depth - 1) rest
  | .comma :: rest => ',' :: (lineStart depth ++ wide depth rest)
  | .colon :: rest => ':' :: ' ' :: wide depth rest
  | token :: rest => token.spelling ++ wide depth rest

def compactText (v : Json) : String :=
  String.ofList (v.tokens.flatMap Token.spelling)

def wideText (v : Json) : String :=
  String.ofList (wide 0 v.tokens)

end TestScript.Json
