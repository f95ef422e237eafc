import TestScript.Browse.Session

/-!
What a list of events comes to, told from the events alone. Commits cut the events into chapters: a
chapter ends with the first commit that finds every required field written in it. Each finished
chapter is a step, and the last one is the draft.
-/

namespace TestScript

namespace Event

/-- The text that an event writes into a field. -/
def textFor? (field : Field) : Event → Option String
  | .write other text => if other = field then some text else none
  | _ => none

def lesson? : Event → Option LessonIndex
  | .selectLesson lesson => some lesson
  | _ => none

/-- The tab that an event leads to. -/
def tab? : Event → Option Tab
  | .selectLesson _ => some .learn
  | .selectTab tab => some tab
  | _ => none

end Event

namespace History

/-- The text last written into a field. -/
def lastText (events : List Event) (field : Field) : String :=
  (events.filterMap (Event.textFor? field)).getLast?.getD ""

def draft (events : List Event) : Draft := .ofTexts (lastText events)

/-- Every required field has been written, and not emptied since. -/
def Complete (events : List Event) : Prop :=
  ∀ field ∈ Field.required, lastText events field ≠ ""

instance (events : List Event) : Decidable (Complete events) :=
  inferInstanceAs (Decidable (∀ field ∈ Field.required, lastText events field ≠ ""))

structure Chapters where
  finished : List (List Event) := []
  current : List Event := []
  deriving DecidableEq, Repr

def Chapters.add (c : Chapters) (e : Event) : Chapters :=
  if e = .commit ∧ Complete c.current then { finished := c.finished ++ [c.current] }
  else { c with current := c.current ++ [e] }

def chapters (events : List Event) : Chapters := events.foldl Chapters.add {}

def lesson (events : List Event) : LessonIndex :=
  (events.filterMap Event.lesson?).getLast?.getD .first

def tab (events : List Event) : Tab :=
  (events.filterMap Event.tab?).getLast?.getD .learn

end History

end TestScript
