import TestScript.Form.Basic
import TestScript.Lesson.Basic
import TestScript.Script
import TestScript.Table

/-!
A session: what is selected on the screen, and the form, changed by one event at a time. Selecting
leaves the form alone, and writing leaves the selection alone. The practice tab shows the form and
never looks at the catalog; the other two show the selected lesson, if the catalog has it.
-/

namespace TestScript

structure Selection where
  lesson : LessonIndex := .first
  tab : Tab := .learn
  deriving DecidableEq, Repr

namespace Selection

/-- A lesson always opens under its table. -/
def openLesson (_ : Selection) (lesson : LessonIndex) : Selection := { lesson, tab := .learn }

def openTab (s : Selection) (tab : Tab) : Selection := { s with tab }

end Selection

inductive Screen where
  | learn (lesson : Lesson) (table : Table)
  | practice (draft : Draft) (kinds : List LocatorKind) (table : Table)
  | script (lesson : Lesson) (text : String)
  deriving DecidableEq, Repr

namespace Screen

def tab : Screen → Tab
  | .learn .. => .learn
  | .practice .. => .practice
  | .script .. => .script

def ofLesson (lesson : Lesson) : Screen := .learn lesson (Table.ofSteps lesson.steps)

def ofForm (form : Form) : Screen := .practice form.draft form.kinds (Table.ofSteps form.steps)

def scriptOf (lesson : Lesson) : Screen := .script lesson (Script.ofSteps lesson.steps)

end Screen

def Selection.screen? (s : Selection) (c : Catalog) (form : Form) : Option Screen :=
  match s.tab with
  | .learn => (c.lesson? s.lesson).map .ofLesson
  | .practice => some (.ofForm form)
  | .script => (c.lesson? s.lesson).map .scriptOf

inductive Event where
  | selectLesson (lesson : LessonIndex)
  | selectTab (tab : Tab)
  | write (field : Field) (text : String)
  | commit
  deriving DecidableEq, Repr

structure Session where
  selection : Selection := {}
  form : Form := {}
  deriving DecidableEq, Repr

namespace Session

def apply (s : Session) : Event → Session
  | .selectLesson lesson => { s with selection := s.selection.openLesson lesson }
  | .selectTab tab => { s with selection := s.selection.openTab tab }
  | .write field text => { s with form := s.form.edit field text }
  | .commit => { s with form := s.form.commit.2 }

def run (s : Session) (events : List Event) : Session :=
  events.foldl apply s

/-- The events of one edit in the form. An action that does not offer the kind in the draft takes
the kind away, so that a change of the action leaves no kind that cannot be chosen. -/
def edits (s : Session) (field : Field) (text : String) : List Event :=
  if field = .action ∧ ¬ s.form.Offers text then [.write field text, .write .kind ""]
  else [.write field text]

def screen? (s : Session) (c : Catalog) : Option Screen :=
  s.selection.screen? c s.form

@[simp] theorem run_nil (s : Session) : s.run [] = s := rfl

@[simp] theorem run_cons (s : Session) (e : Event) (events : List Event) :
    s.run (e :: events) = (s.apply e).run events := rfl

@[simp] theorem run_append (s : Session) (first second : List Event) :
    s.run (first ++ second) = (s.run first).run second :=
  List.foldl_append

end Session

/-- The draft that a step is committed from. -/
def Step.draft (s : Step) : Draft :=
  ⟨s.description, s.action.label, s.kind.label, s.locator, s.data, s.expected⟩

def Draft.events (d : Draft) : List Event :=
  Field.all.map fun field => .write field (d.get field)

def Form.events (form : Form) : List Event :=
  form.steps.flatMap (fun step => step.draft.events ++ [.commit]) ++ form.draft.events

/-- The events that lead a new session to this one. -/
def Session.record (s : Session) : List Event :=
  s.form.events ++ [.selectLesson s.selection.lesson, .selectTab s.selection.tab]

end TestScript
