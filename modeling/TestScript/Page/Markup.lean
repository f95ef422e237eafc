import TestScript.Page.Html

/-!
The text of a page read again: its tags, one after the other, each with the text that follows it. A
tag ends at the first `>` that is not inside a quoted value, and a value at the next double quote;
nothing else is looked at. References stay as they are written.
-/

namespace TestScript

namespace Html

inductive Tag where
  | opening (name : String) (attributes : List Attribute)
  | closing (name : String)
  deriving DecidableEq, Repr

/-- A tag and the text up to the next one. -/
structure Mark where
  tag : Tag
  text : String := ""
  deriving DecidableEq, Repr

structure Markup where
  /-- The text before the first tag. -/
  lead : String := ""
  marks : List Mark := []
  deriving DecidableEq, Repr

namespace Markup

/-- The markup with a text before it. -/
def afterText (m : Markup) (text : String) : Markup := { m with lead := text ++ m.lead }

/-- The markup with a tag before it, which takes the lead for its text. -/
def afterTag (m : Markup) (tag : Tag) : Markup := { marks := ⟨tag, m.lead⟩ :: m.marks }

@[simp] theorem afterText_empty (m : Markup) : m.afterText "" = m := by
  simp [afterText]

@[simp] theorem afterText_afterText (m : Markup) (second first : String) :
    (m.afterText second).afterText first = m.afterText (first ++ second) := by
  simp [afterText, String.append_assoc]

/-- Where in the text the reader stands, and what it has read of a tag. -/
inductive Place where
  | text
  /-- After the character that begins a tag. -/
  | start
  | closing (name : List Char)
  | opening (name : List Char)
  /-- Where another attribute may begin. -/
  | inside (name : String) (attributes : List Attribute)
  | key (name : String) (attributes : List Attribute) (key : List Char)
  | quote (name : String) (attributes : List Attribute) (key : String)
  | value (name : String) (attributes : List Attribute) (key : String) (value : List Char)
  deriving DecidableEq, Repr

/-- A character that names of tags and attributes are made of. -/
def isNameChar (c : Char) : Bool := c.isAlphanum || c == '-'

def readFrom? : Place → List Char → Option Markup
  | .text, [] => some {}
  | _, [] => none
  | .text, c :: rest =>
    if c = '<' then readFrom? .start rest
    else (readFrom? .text rest).map (·.afterText (String.singleton c))
  | .start, c :: rest =>
    if c = '/' then readFrom? (.closing []) rest
    else if isNameChar c then readFrom? (.opening [c]) rest
    else none
  | .closing name, c :: rest =>
    if c = '>' then (readFrom? .text rest).map (·.afterTag (.closing (String.ofList name)))
    else if isNameChar c then readFrom? (.closing (name ++ [c])) rest
    else none
  | .opening name, c :: rest =>
    if c = '>' then (readFrom? .text rest).map (·.afterTag (.opening (String.ofList name) []))
    else if c = ' ' then readFrom? (.inside (String.ofList name) []) rest
    else if isNameChar c then readFrom? (.opening (name ++ [c])) rest
    else none
  | .inside name attributes, c :: rest =>
    if c = '>' then (readFrom? .text rest).map (·.afterTag (.opening name attributes))
    else if c = ' ' then readFrom? (.inside name attributes) rest
    else if isNameChar c then readFrom? (.key name attributes [c]) rest
    else none
  | .key name attributes key, c :: rest =>
    if c = '=' then readFrom? (.quote name attributes (String.ofList key)) rest
    else if isNameChar c then readFrom? (.key name attributes (key ++ [c])) rest
    else none
  | .quote name attributes key, c :: rest =>
    if c = '"' then readFrom? (.value name attributes key []) rest else none
  | .value name attributes key value, c :: rest =>
    if c = '"' then readFrom? (.inside name (attributes ++ [⟨key, String.ofList value⟩])) rest
    else readFrom? (.value name attributes key (value ++ [c])) rest

def read? (html : String) : Option Markup := readFrom? .text html.toList

end Markup

/-- The tag with its values left out. -/
def Tag.outline : Tag → Tag
  | .opening name attributes => .opening name (attributes.map fun a => { a with value := "" })
  | .closing name => .closing name

namespace Mark

/-- The name of the element that the tag opens. -/
def opened? (m : Mark) : Option String :=
  match m.tag with
  | .opening name _ => some name
  | .closing _ => none

/-- The text of an attribute, read with its references. -/
def attribute? (m : Mark) (name : String) : Option String :=
  match m.tag with
  | .opening _ attributes => (attributes.find? (·.name = name)).map fun a => unescape a.value
  | .closing _ => none

/-- The text that follows, read with its references. -/
def content (m : Mark) : String := unescape m.text

end Mark

end Html

end TestScript
