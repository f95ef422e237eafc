import TestScript.Browse.Session
import TestScript.Lesson.Builtin
import TestScript.Page.Html

namespace TestScript.Page

open Html in
def lessonButtons (selected : LessonIndex) : Html :=
  node "div" "lesson-picker" (Catalog.builtin.entries.map fun (index, lesson) =>
    button (classWhen (index = selected) "lesson-button" "active") lesson.title)

open Html in
def tabButtons (active : Tab) : Html :=
  node "div" "tab-bar" (Tab.all.map fun tab =>
    button (classWhen (tab = active) "tab" "active") tab.label)

open Html in
def row (cellTag : String) (cells : List String) : Html :=
  .element "tr" [] (cells.map (labelled cellTag))

open Html in
def table (t : Table) : Html :=
  node "table" "step-table"
    [.element "thead" [] [row "th" Table.heads],
     .element "tbody" [] (t.rows.map (row "td"))]

open Html in
/-- The table, or the message in its place when there are no steps and something to say about it. -/
def steps (steps : List Step) (emptyMessage : String) : Html :=
  if steps = [] ∧ emptyMessage ≠ "" then node "p" "empty-table" [.text emptyMessage]
  else table (Table.ofSteps steps)

/-- The id of the list of actions that the action input suggests. -/
def actionList : String := "action-options"

open Html in
def suggestions : Html :=
  .element "datalist" [⟨"id", actionList⟩]
    (Verb.all.map fun verb => .element "option" [⟨"value", verb.label⟩] [])

open Html in
def input (d : Draft) (field : Field) : Html :=
  let list := if field = .action then [⟨"list", actionList⟩] else []
  node "label" (classWhen (field ∈ Field.required) "form-field" "required")
    [labelled "span" field.label,
     .void "input" ([⟨"value", d.get field⟩, ⟨"name", field.key⟩] ++ list ++ [⟨"spellcheck", "false"⟩])]

/-- One entry of a select element. -/
structure Choice where
  value : String
  content : String
  selected : Bool
  deriving DecidableEq, Repr

def Choice.html (c : Choice) : Html :=
  let mark := if c.selected then [⟨"selected", "selected"⟩] else []
  .element "option" (⟨"value", c.value⟩ :: mark) [.text c.content]

/-- No kind, and then the kinds on offer. The one that the draft holds is selected, if it is here.
-/
def choices (d : Draft) (kinds : List LocatorKind) : List Choice :=
  ⟨"", "Select...", d.kind == ""⟩ :: kinds.map fun kind => ⟨kind.label, kind.label, kind.label == d.kind⟩

open Html in
def kindChoice (d : Draft) (kinds : List LocatorKind) : Html :=
  node "label" "form-field required"
    [labelled "span" Field.kind.label,
     .element "select" [⟨"name", Field.kind.key⟩] ((choices d kinds).map Choice.html)]

open Html in
def form (d : Draft) (kinds : List LocatorKind) (hint : Option String) : Html :=
  node "div" "step-form"
    [suggestions, input d .description, input d .action, kindChoice d kinds, input d .locator,
     input d .data, input d .expected,
     node "div" "form-actions"
      (button "add-step-button" "Add Step" ::
        hint.toList.map fun text => node "span" "form-hint" [.text text])]

open Html in
def learnPanel (lesson : Lesson) : Html :=
  node "div" "panel learn-panel"
    [node "div" "panel-header"
      [labelled "h2" lesson.title,
       node "span" "hint" [.text (lesson.steps.length.repr ++ " steps")]],
     steps lesson.steps ""]

open Html in
def practicePanel (form : Form) (hint : Option String) : Html :=
  node "div" "panel practice-panel"
    [node "div" "panel-header" [labelled "h2" "Build your own test"],
     Page.form form.draft form.kinds hint,
     steps form.steps "No custom steps yet. Fill in the form and add one."]

open Html in
def scriptPanel (title script : String) : Html :=
  node "div" "panel script-panel"
    [node "div" "panel-header"
      [labelled "h2" (title ++ " script"), button "save-button" "Download"],
     node "pre" "script-output" [.text script]]

end TestScript.Page
