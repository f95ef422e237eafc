import TestScript.Json.Printer
import TestScript.Json.Reader
import TestScript.Lesson.Basic
import TestScript.Vocabulary.Interface

namespace TestScript

namespace Step

/-- The keys of the seven texts, in the order of `Step.texts`. -/
def keys : List String :=
  ["testId", Field.description.key, Field.action.key, Field.kind.key, Field.locator.key,
   Field.data.key, Field.expected.key]

def toJson (s : Step) : Json :=
  .object ((keys.zip s.texts).map fun (key, text) => (some key, .ofText text))

/-- A step is read from an object or from an array of its seven texts. In an object each of the
seven keys must be there once, and every key must be a text, even one that is passed over. -/
def ofJson? : Json → Option Step
  | .object members =>
    if members.all (·.1.isSome) then (keys.mapM (Json.textAt? members)).bind ofTexts? else none
  | .array items => (items.mapM Json.text?).bind ofTexts?
  | _ => none

def parse? (text : String) : Option Step :=
  (Json.parse? text).bind ofJson?

end Step

def Lesson.toJson (lesson : Lesson) : Json :=
  .object
    [(some "title", .ofText lesson.title), (some "steps", .array (lesson.steps.map Step.toJson))]

namespace Tab

def toJson (tab : Tab) : Json := .ofText tab.label

def ofLabel? (text : String) : Option Tab := all.find? (·.label = text)

/-- The label, or an object with the label as its only key and nothing in it. -/
def ofJson? : Json → Option Tab
  | .string (some label) => ofLabel? label
  | .object [(some label, .null)] => ofLabel? label
  | _ => none

def parse? (text : String) : Option Tab :=
  (Json.parse? text).bind ofJson?

end Tab

end TestScript
