import TestScript.Command.Switch

/-!
How arguments are read. A name after two dashes may carry a value after an equals sign. Letters
after one dash stand for one switch each, up to the first that takes a value: what is left of the
argument, less one equals sign, is that value. A value of its own is the next argument, unless that
one begins like a switch.
-/

namespace TestScript

/-- One argument, before it is known what its switches are. -/
inductive Argument where
  | word (text : String)
  | dashes
  | named (name : String) (value : Option String)
  | letters (letters : List Char)
  deriving DecidableEq, Repr

namespace Argument

/-- The text before the first equals sign and, if there is one, the text after it. -/
def named? (cs : List Char) : Argument :=
  match cs.dropWhile (· != '=') with
  | [] => .named (String.ofList cs) none
  | _ :: value => .named (String.ofList (cs.takeWhile (· != '='))) (some (String.ofList value))

/-- A lone dash is a word like any other. -/
def ofText (text : String) : Argument :=
  match text.toList with
  | ['-', '-'] => .dashes
  | '-' :: '-' :: name => named? name
  | '-' :: letter :: rest => .letters (letter :: rest)
  | _ => .word text

end Argument

/-- What the arguments of a command say, one switch at a time. -/
inductive Given where
  | flag (switch : Switch)
  | value (switch : Switch) (text : String)
  /-- An argument that cannot be understood. -/
  | refused
  deriving DecidableEq, Repr

namespace Given

def withoutEquals : List Char → List Char
  | '=' :: rest => rest
  | rest => rest

/-- The switches in the letters of one argument, and the switch that still waits for its value. -/
def ofLetters (known : List Switch) : List Char → List Given × Option Switch
  | [] => ([], none)
  | letter :: rest =>
    match known.find? (·.letter? = some letter) with
    | none => ([.refused], none)
    | some switch =>
      if switch.takesValue then
        if rest = [] then ([], some switch)
        else ([.value switch (String.ofList (withoutEquals rest))], none)
      else
        let (more, waiting) := ofLetters known rest
        (.flag switch :: more, waiting)

/-- The switch in a named argument, or the switch that still waits for its value. -/
def ofNamed (known : List Switch) (name : String) (value : Option String) :
    List Given × Option Switch :=
  match known.find? (·.word = name), value with
  | none, _ => ([.refused], none)
  | some switch, none => if switch.takesValue then ([], some switch) else ([.flag switch], none)
  | some switch, some text =>
    if switch.takesValue then ([.value switch text], none) else ([.refused], none)

/-- Reads arguments of which none is meant by its position. -/
def ofArguments (known : List Switch) (waiting : Option Switch) : List String → List Given
  | [] => if waiting = none then [] else [.refused]
  | text :: rest =>
    match waiting, Argument.ofText text with
    | some switch, .word content => .value switch content :: ofArguments known none rest
    | none, .dashes => if rest = [] then [] else [.refused]
    | none, .named name content =>
      let (given, waiting) := ofNamed known name content
      given ++ ofArguments known waiting rest
    | none, .letters cs =>
      let (given, waiting) := ofLetters known cs
      given ++ ofArguments known waiting rest
    | _, _ => [.refused]

/-- A text that does not begin like a switch, and so can be the value of the argument before it. -/
def IsWord (text : String) : Prop := Argument.ofText text = .word text

instance (text : String) : Decidable (IsWord text) := inferInstanceAs (Decidable (_ = _))

/-- Switches in the letters after one dash, and the value that is left to the next argument. -/
inductive Lettered : List Given → List Char → Option String → Prop where
  | last {switch letter} : switch.letter? = some letter → switch.takesValue = false →
      Lettered [.flag switch] [letter] none
  | flag {switch letter given letters next} : switch.letter? = some letter →
      switch.takesValue = false → Lettered given letters next →
      Lettered (.flag switch :: given) (letter :: letters) next
  | attached {switch letter text} : switch.letter? = some letter → switch.takesValue = true →
      text ≠ "" → text.toList.head? ≠ some '=' →
      Lettered [.value switch text] (letter :: text.toList) none
  | equals {switch letter text} : switch.letter? = some letter → switch.takesValue = true →
      Lettered [.value switch text] (letter :: '=' :: text.toList) none
  | apart {switch letter text} : switch.letter? = some letter → switch.takesValue = true →
      IsWord text → Lettered [.value switch text] [letter] (some text)

/-- Arguments for switches in their order. Two dashes at the end add nothing. -/
inductive Spelled : List Given → List String → Prop where
  | nil : Spelled [] []
  | dashes : Spelled [] ["--"]
  | flag {switch given rest} : switch.takesValue = false → Spelled given rest →
      Spelled (.flag switch :: given) (("--" ++ switch.word) :: rest)
  | equals {switch text given rest} : switch.takesValue = true → Spelled given rest →
      Spelled (.value switch text :: given) (("--" ++ switch.word ++ "=" ++ text) :: rest)
  | apart {switch text given rest} : switch.takesValue = true → IsWord text → Spelled given rest →
      Spelled (.value switch text :: given) (("--" ++ switch.word) :: text :: rest)
  | letters {first letters next given rest} : Lettered first letters next → Spelled given rest →
      Spelled (first ++ given) (String.ofList ('-' :: letters) :: (next.toList ++ rest))

end Given

end TestScript
