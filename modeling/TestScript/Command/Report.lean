import TestScript.Form.Batch
import TestScript.Lesson.Builtin
import TestScript.Lookup
import TestScript.Script
import TestScript.Step.Document
import TestScript.Table

namespace TestScript

/-- The two forms in which a sequence of steps is printed. -/
inductive Rendering where
  | table
  | script
  deriving DecidableEq, Repr

namespace Rendering

/-- The rendering a tab asks for where the sequence is shown as a table under `home`. The script
tab prints the script everywhere, also at home. -/
def ofTab (tab home : Tab) : Except Fault Rendering :=
  if tab = .script then .ok .script
  else if tab = home then .ok .table
  else .error (.tabUnavailable tab)

def text? (r : Rendering) (steps : List Step) : Option String :=
  match r with
  | .table => (Table.ofSteps steps).text?
  | .script => some (Script.ofSteps steps)

end Rendering

/-- How a sequence is printed, and where to; without a path it goes to the standard output. -/
structure Output where
  tab : Tab
  json : Bool := false
  path : Option String := none
  deriving DecidableEq, Repr

inductive Command where
  | lessons
  | actions
  | printLesson (query : String) (output : Output)
  | printSequence (specs : List String) (output : Output)
  deriving DecidableEq, Repr

/-- What a command has to say: a text, the file it is for, and the specs that were set aside. There
is no text if a table cannot be set; then the program stops there. -/
structure Report where
  text? : Option String
  path : Option String := none
  rejections : List Rejection := []
  deriving DecidableEq, Repr

def Lesson.summary (lesson : Lesson) (index : LessonIndex) : String :=
  Text.padStart 2 ' ' index.position.repr ++ "  " ++ Text.padEnd 16 lesson.title ++ " " ++
    lesson.steps.length.repr ++ " steps"

/-- A step that shows where a line takes its texts from. -/
def Verb.sample (verb : Verb) : Step where
  id := ""
  description := ""
  action := .known verb
  kind := .custom ""
  locator := "<locator>"
  data := "<testData>"
  expected := "<expectedResult>"

def Verb.summary (verb : Verb) : String :=
  Text.padEnd 12 verb.label ++ " " ++ Text.padEnd 44 verb.sample.line ++ " [" ++
    ", ".intercalate (verb.strategies.map Strategy.label) ++ "]"

def Catalog.named (c : Catalog) (query : String) : Except Fault Lesson := do
  match c.lesson? (← c.find query) with
  | some lesson => .ok lesson
  | none => .error (.unknownLesson query)

namespace Command

def report : Command → Except Fault Report
  | .lessons =>
    let lines := Catalog.builtin.entries.map fun (index, lesson) => lesson.summary index
    .ok { text? := some ("\n".intercalate lines) }
  | .actions => .ok { text? := some ("\n".intercalate (Verb.all.map Verb.summary)) }
  | .printLesson query output => do
    let lesson ← Catalog.builtin.named query
    let rendering ← Rendering.ofTab output.tab .learn
    let text? :=
      if output.json then some lesson.toJson.wideText else rendering.text? lesson.steps
    return { text?, path := output.path }
  | .printSequence specs output => do
    let rendering ← Rendering.ofTab output.tab .practice
    let batch := Batch.ofSpecs specs
    let text? :=
      if output.json then some (Json.array (batch.steps.map Step.toJson)).wideText
      else rendering.text? batch.steps
    return { text?, path := output.path, rejections := batch.rejections }

end Command

end TestScript
