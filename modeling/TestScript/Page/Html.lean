namespace TestScript

structure Attribute where
  name : String
  value : String
  deriving DecidableEq, Repr

inductive Html where
  | text (content : String)
  | element (tag : String) (attributes : List Attribute) (children : List Html)
  /-- An element without content and closing tag. -/
  | void (tag : String) (attributes : List Attribute)

namespace Html

def escapedInText (c : Char) : List Char :=
  if c = '&' then "&amp;".toList
  else if c = '<' then "&lt;".toList
  else if c = '>' then "&gt;".toList
  else [c]

def escapedInValue (c : Char) : List Char :=
  if c = '"' then "&quot;".toList else escapedInText c

def escapeText (s : String) : String := String.ofList (s.toList.flatMap escapedInText)

def escapeValue (s : String) : String := String.ofList (s.toList.flatMap escapedInValue)

/-- The characters meant by a text or a value; an ampersand that begins no known reference is one.
-/
def unescaped : List Char → List Char
  | '&' :: 'a' :: 'm' :: 'p' :: ';' :: rest => '&' :: unescaped rest
  | '&' :: 'l' :: 't' :: ';' :: rest => '<' :: unescaped rest
  | '&' :: 'g' :: 't' :: ';' :: rest => '>' :: unescaped rest
  | '&' :: 'q' :: 'u' :: 'o' :: 't' :: ';' :: rest => '"' :: unescaped rest
  | c :: rest => c :: unescaped rest
  | [] => []

def unescape (s : String) : String := String.ofList (unescaped s.toList)

/-- Only pieces know how texts and values are escaped, so no text can open or close an element. -/
inductive Piece where
  | opening (tag : String) (attributes : List Attribute)
  | closing (tag : String)
  | text (content : String)
  deriving DecidableEq, Repr

mutual

def pieces : Html → List Piece
  | .text content => [.text content]
  | .element tag attributes children =>
    .opening tag attributes :: (piecesOfAll children ++ [.closing tag])
  | .void tag attributes => [.opening tag attributes]

def piecesOfAll : List Html → List Piece
  | [] => []
  | html :: rest => html.pieces ++ piecesOfAll rest

end

def Piece.write : Piece → String
  | .opening tag attributes =>
    "<" ++ tag ++
      String.join (attributes.map fun a => " " ++ a.name ++ "=\"" ++ escapeValue a.value ++ "\"") ++
      ">"
  | .closing tag => "</" ++ tag ++ ">"
  | .text content => escapeText content

def render (html : Html) : String := String.join (html.pieces.map Piece.write)

def node (tag : String) (className : String) (children : List Html) : Html :=
  .element tag [⟨"class", className⟩] children

/-- An element without attributes around a text. -/
def labelled (tag : String) (content : String) : Html :=
  .element tag [] [.text content]

/-- The class of an element, with a second one where the condition holds. -/
def classWhen (condition : Prop) [Decidable condition] (always sometimes : String) : String :=
  if condition then always ++ " " ++ sometimes else always

def button (className : String) (content : String) : Html :=
  node "button" className [.text content]

end Html

end TestScript
