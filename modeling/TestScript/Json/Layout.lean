import TestScript.Json.Lexer
import TestScript.Json.Printer

/-!
All JSON texts of a value, of which two are printed. White space may stand around every token, and a
character of a string can be written in more than one way.
-/

namespace TestScript.Json

/-- A piece of a string, as it stands between the quotes. -/
inductive Written where
  | plain (c : Char)
  | short (letter : Char)
  | code (digits : List Char)
  deriving DecidableEq, Repr

namespace Written

def chars : Written → List Char
  | .plain c => [c]
  | .short letter => ['\\', letter]
  | .code digits => '\\' :: 'u' :: digits

def Valid : Written → Prop
  | .plain c => c ≠ '"' ∧ c ≠ '\\' ∧ 0x20 ≤ c.toNat
  | .short letter => (shortEscape? letter).isSome
  | .code digits => digits.length = 4 ∧ ∀ c ∈ digits, (hexValue? c).isSome

/-- The number that hexadecimal digits stand for. -/
def number (digits : List Char) : Nat :=
  digits.foldl (fun code c => 16 * code + (hexValue? c).getD 0) 0

/-- The characters that the pieces stand for together, unless half of a pair is left alone. -/
def meant? : List Written → Option (List Char)
  | [] => some []
  | .plain c :: rest => (meant? rest).map (c :: ·)
  | .short letter :: rest => do return (← shortEscape? letter) :: (← meant? rest)
  | .code first :: .code second :: rest =>
    if Partial.IsFirstHalf (number first) then
      if Partial.IsSecondHalf (number second) then
        (meant? rest).map (Partial.joined (number first) (number second) :: ·)
      else none
    else if Partial.IsSecondHalf (number first) then none
    else (meant? (.code second :: rest)).map (Char.ofNat (number first) :: ·)
  | .code digits :: rest =>
    if Partial.IsFirstHalf (number digits) ∨ Partial.IsSecondHalf (number digits) then none
    else (meant? rest).map (Char.ofNat (number digits) :: ·)

end Written

/-- The ways to write a token. -/
def Token.Spelled : Token → List Char → Prop
  | .number numeral, cs => isNumeral cs ∧ cs = numeral.toList
  | .string text, cs =>
    ∃ body : List Written, (∀ w ∈ body, w.Valid) ∧ Written.meant? body = text.map String.toList ∧
      cs = '"' :: (body.flatMap Written.chars ++ ['"'])
  | token, cs => cs = token.spelling

def IsGap (cs : List Char) : Prop := ∀ c ∈ cs, isSpace c

/-- Tokens in a row. The gaps may be empty, also between two words; no value has such neighbours. -/
inductive Layout : List Token → List Char → Prop where
  | nil {gap} : IsGap gap → Layout [] gap
  | cons {gap token word tokens cs} : IsGap gap → Token.Spelled token word → Layout tokens cs →
      Layout (token :: tokens) (gap ++ word ++ cs)

def IsTextOf (text : String) (v : Json) : Prop := Layout v.tokens text.toList

end TestScript.Json
