import TestScript.Json.Token

/-!
From characters to tokens, one character at a time. White space separates tokens and is otherwise
dropped. Characters that are neither white space, marks nor quotes form words, and a word must be
one of the three names or a numeral.
-/

namespace TestScript.Json

def isWhole (digits : List Char) : Bool :=
  digits == ['0'] || (!digits.isEmpty && digits.head? != some '0' && digits.all Char.isDigit)

def isDigits (digits : List Char) : Bool :=
  !digits.isEmpty && digits.all Char.isDigit

/-- The digits of an exponent, after its letter. -/
def isExponent : List Char → Bool
  | '+' :: digits => isDigits digits
  | '-' :: digits => isDigits digits
  | digits => isDigits digits

def isExponentLetter (c : Char) : Bool := c == 'e' || c == 'E'

/-- What may follow a whole number and its fraction: nothing, or an exponent. -/
def isScale : List Char → Bool
  | [] => true
  | letter :: exponent => isExponentLetter letter && isExponent exponent

/-- A numeral without its sign. -/
def isMagnitude (cs : List Char) : Bool :=
  let rest := cs.dropWhile Char.isDigit
  isWhole (cs.takeWhile Char.isDigit) &&
    match rest with
    | '.' :: fraction =>
      isDigits (fraction.takeWhile Char.isDigit) && isScale (fraction.dropWhile Char.isDigit)
    | rest => isScale rest

/-- An optional minus sign, digits without a leading zero, a fraction, an exponent. -/
def isNumeral : List Char → Bool
  | '-' :: magnitude => isMagnitude magnitude
  | magnitude => isMagnitude magnitude

/-- The part of a string that has been read, last character first. The first half of a surrogate
pair waits for its second. -/
structure Partial where
  chars : List Char := []
  half : Option Nat := none
  deriving DecidableEq, Repr

namespace Partial

def char? (p : Partial) (c : Char) : Option Partial :=
  match p.half with
  | none => some { chars := c :: p.chars }
  | some _ => none

def IsFirstHalf (code : Nat) : Prop := 0xD800 ≤ code ∧ code ≤ 0xDBFF

def IsSecondHalf (code : Nat) : Prop := 0xDC00 ≤ code ∧ code ≤ 0xDFFF

instance (code : Nat) : Decidable (IsFirstHalf code) := inferInstanceAs (Decidable (_ ∧ _))

instance (code : Nat) : Decidable (IsSecondHalf code) := inferInstanceAs (Decidable (_ ∧ _))

/-- The character that two halves stand for. -/
def joined (first second : Nat) : Char :=
  Char.ofNat (0x10000 + (first - 0xD800) * 0x400 + (second - 0xDC00))

/-- Takes the code of a four-digit escape. -/
def code? (p : Partial) (code : Nat) : Option Partial :=
  match p.half with
  | some first =>
    if IsSecondHalf code then some { chars := joined first code :: p.chars } else none
  | none =>
    if IsFirstHalf code then some { p with half := some code }
    else if IsSecondHalf code then none
    else some { chars := Char.ofNat code :: p.chars }

def text? (p : Partial) : Option String :=
  match p.half with
  | none => some (String.ofList p.chars.reverse)
  | some _ => none

end Partial

/-- Where in a token the lexer stands. Strings carry `none` once a half has been left alone. -/
inductive Mode where
  | between
  | word (chars : List Char)
  | string (read : Option Partial)
  | escape (read : Option Partial)
  | hex (read : Option Partial) (digitsLeft : Nat) (code : Nat)
  deriving DecidableEq, Repr

/-- The tokens read so far, last one first. -/
structure Lexer where
  tokens : List Token := []
  mode : Mode := .between
  deriving DecidableEq, Repr

def isSpace (c : Char) : Bool := c == ' ' || c == '\n' || c == '\t' || c == '\r'

def mark? (c : Char) : Option Token :=
  if c = '[' then some .openArray
  else if c = ']' then some .closeArray
  else if c = '\x7b' then some .openObject
  else if c = '\x7d' then some .closeObject
  else if c = ',' then some .comma
  else if c = ':' then some .colon
  else none

def wordToken? (word : List Char) : Option Token :=
  if word = "null".toList then some .null
  else if word = "true".toList then some (.bool true)
  else if word = "false".toList then some (.bool false)
  else if isNumeral word then some (.number (String.ofList word))
  else none

/-- The character that a backslash before this one stands for. -/
def shortEscape? (c : Char) : Option Char :=
  if c = '"' then some '"'
  else if c = '\\' then some '\\'
  else if c = '/' then some '/'
  else if c = 'b' then some '\x08'
  else if c = 'f' then some '\x0c'
  else if c = 'n' then some '\n'
  else if c = 'r' then some '\r'
  else if c = 't' then some '\t'
  else none

def hexValue? (c : Char) : Option Nat :=
  if '0' ≤ c ∧ c ≤ '9' then some (c.toNat - '0'.toNat)
  else if 'a' ≤ c ∧ c ≤ 'f' then some (c.toNat - 'a'.toNat + 10)
  else if 'A' ≤ c ∧ c ≤ 'F' then some (c.toNat - 'A'.toNat + 10)
  else none

namespace Lexer

def push (l : Lexer) (token : Token) : Lexer := { tokens := token :: l.tokens }

/-- A word ends where a character follows that cannot belong to it. -/
def endWord? (l : Lexer) : Option Lexer :=
  match l.mode with
  | .word chars => (wordToken? chars.reverse).map l.push
  | _ => some l

/-- Takes a character that is not inside a string. -/
def outside? (l : Lexer) (c : Char) : Option Lexer :=
  if isSpace c then l.endWord?
  else match mark? c with
    | some token => l.endWord?.map (·.push token)
    | none =>
      if c = '"' then l.endWord?.map fun l => { l with mode := .string (some {}) }
      else match l.mode with
        | .word chars => some { l with mode := .word (c :: chars) }
        | _ => some { l with mode := .word [c] }

def step? (l : Lexer) (c : Char) : Option Lexer :=
  match l.mode with
  | .between | .word _ => l.outside? c
  | .string read =>
    if c = '"' then some (l.push (.string (read.bind Partial.text?)))
    else if c = '\\' then some { l with mode := .escape read }
    else if c.toNat < 0x20 then none
    else some { l with mode := .string (read.bind (·.char? c)) }
  | .escape read =>
    if c = 'u' then some { l with mode := .hex read 3 0 }
    else (shortEscape? c).map fun d => { l with mode := .string (read.bind (·.char? d)) }
  | .hex read digitsLeft code =>
    (hexValue? c).map fun digit =>
      match digitsLeft with
      | 0 => { l with mode := .string (read.bind (·.code? (16 * code + digit))) }
      | left + 1 => { l with mode := .hex read left (16 * code + digit) }

/-- A document ends between two tokens or with a word. -/
def finish? (l : Lexer) : Option (List Token) :=
  match l.mode with
  | .between => some l.tokens.reverse
  | .word _ => l.endWord?.map (·.tokens.reverse)
  | _ => none

end Lexer

def lex? (cs : List Char) : Option (List Token) :=
  (cs.foldlM Lexer.step? {}).bind Lexer.finish?

end TestScript.Json
