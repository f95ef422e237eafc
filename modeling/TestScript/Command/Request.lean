import TestScript.Command.Argument
import TestScript.Command.Help
import TestScript.Command.Report
import TestScript.Lookup

/-!
What a list of arguments asks for. Switches take effect from left to right: help and the version are
given at once, and an argument that is wrong puts an end to it. Every switch but a step is given at
most once.
-/

namespace TestScript

inductive Request where
  | help (topic : Topic)
  | version
  | run (command : Command)
  deriving DecidableEq, Repr

/-- The settings of a command, as far as its arguments have been read. -/
structure Settings where
  seen : List Switch := []
  lesson : Option String := none
  tab : Option Tab := none
  specs : List String := []
  path : Option String := none
  deriving DecidableEq, Repr

namespace Settings

def see (s : Settings) (switch : Switch) : Settings := { s with seen := switch :: s.seen }

/-- Takes the value of a switch. There is no path without a character. -/
def take? (s : Settings) (text : String) : Switch → Option Settings
  | .lesson => some { s with lesson := some text }
  | .tab => (Tab.ofName text).toOption.map fun tab => { s with tab := some tab }
  | .step => some { s with specs := s.specs ++ [text] }
  | .output => if text = "" then none else some { s with path := some text }
  | _ => none

/-- Takes one switch. Where the reading stops, what it stops with: a request, or nothing if the
switch is wrong. Help is on what the switches are given for. -/
def apply (topic : Topic) (s : Settings) : Given → Except (Option Request) Settings
  | .refused => .error none
  | .flag .help => .error (some (.help topic))
  | .flag .version => .error (some .version)
  | .flag switch => if switch ∈ s.seen then .error none else .ok (s.see switch)
  | .value switch text =>
    if switch ∈ s.seen ∧ switch ≠ .step then .error none
    else match (s.see switch).take? text switch with
      | some next => .ok next
      | none => .error none

def output (s : Settings) (home : Tab) : Output where
  tab := s.tab.getD home
  json := decide (Switch.json ∈ s.seen)
  path := s.path

/-- The command with these settings. A lesson that they do not name is the preset one, or the first.
A sequence needs a step. -/
def command? (s : Settings) (preset : Option String) : CommandName → Option Command
  | .lessons => some .lessons
  | .actions => some .actions
  | .lesson => some (.printLesson (s.lesson.getD (preset.getD "0")) (s.output .learn))
  | .sequence => if s.specs = [] then none else some (.printSequence s.specs (s.output .practice))

end Settings

namespace Request

def ofCommand? (preset : Option String) (name : CommandName) (arguments : List String) :
    Option Request :=
  match (Given.ofArguments name.switches none arguments).foldlM
      (Settings.apply (.command name)) {} with
  | .error stop => stop
  | .ok settings => (settings.command? preset name).map .run

/-- The help on nothing in particular, on a command, or on help itself. -/
def ofHelp? : List String → Option Request
  | [] => some (.help .program)
  | [word] =>
    if word = "help" then some (.help .help)
    else (CommandName.ofWord? word).map fun name => .help (.command name)
  | _ => none

/-- Reads the arguments before the command, and at its word the rest. -/
def read? (preset : Option String) (s : Settings) : List String → Option Request
  | [] => none
  | text :: rest =>
    match Argument.ofText text with
    | .word word =>
      if word = "help" then ofHelp? rest
      else (CommandName.ofWord? word).bind (ofCommand? preset · rest)
    | .dashes => none
    | .named name value =>
      match (Given.ofNamed Switch.beforeCommand name value).1.foldlM (Settings.apply .program) s with
      | .error stop => stop
      | .ok s => read? preset s rest
    | .letters letters =>
      match (Given.ofLetters Switch.beforeCommand letters).1.foldlM (Settings.apply .program) s with
      | .error stop => stop
      | .ok s => read? preset s rest

/-- The request of the arguments, if they make sense. -/
def ofArguments? (preset : Option String) (arguments : List String) : Option Request :=
  read? preset {} arguments

end Request

end TestScript
