import TestScript.Browse.Session
import TestScript.Page.Components

/-!
The page as a whole: a session over the builtin catalog, and the hint that explains the last refused
commit. Selecting a lesson, editing and committing make an older hint go away; selecting a tab does
not.
-/

namespace TestScript

/-- What a user can do on the page. -/
inductive Gesture where
  | selectLesson (lesson : LessonIndex)
  | selectTab (tab : Tab)
  | edit (field : Field) (text : String)
  | commit
  deriving DecidableEq, Repr

structure App where
  session : Session := {}
  hint : Option String := none
  deriving DecidableEq, Repr

/-- The stamp of the build that the page names in its last line. -/
structure Build where
  host : String
  commit : String
  time : String
  deriving DecidableEq, Repr

namespace App

/-- The form can be used only while it is on the page. -/
def Shows (app : App) : Gesture → Prop
  | .selectLesson _ | .selectTab _ => True
  | .edit _ _ | .commit => app.session.selection.tab = .practice

instance (app : App) : DecidablePred app.Shows
  | .selectLesson _ | .selectTab _ => isTrue trivial
  | .edit _ _ | .commit => inferInstanceAs (Decidable (_ = _))

/-- The events that a gesture means for the session. -/
def events (app : App) : Gesture → List Event
  | .selectLesson lesson => [.selectLesson lesson]
  | .selectTab tab => [.selectTab tab]
  | .edit field text => app.session.edits field text
  | .commit => [.commit]

def hintAfter (app : App) : Gesture → Option String
  | .selectLesson _ | .edit _ _ => none
  | .selectTab _ => app.hint
  | .commit => app.session.form.hint?

def perform (app : App) (gesture : Gesture) : App where
  session := app.session.run (app.events gesture)
  hint := app.hintAfter gesture

/-- The app after a gesture, if there is something on the page to perform it on. -/
def perform? (app : App) (gesture : Gesture) : Option App :=
  if app.Shows gesture then some (app.perform gesture) else none

def panel? (app : App) : Option Html :=
  (app.session.screen? .builtin).map fun
    | .learn lesson _ => Page.learnPanel lesson
    | .practice .. => Page.practicePanel app.session.form app.hint
    | .script lesson text => Page.scriptPanel lesson.title text

open Html in
def header : Html :=
  node "header" "header"
    [node "div" "header-left"
      [labelled "h1" "Automation Showcase",
       node "p" "subtitle" [.text "Test steps, lessons and generated scripts"]]]

open Html in
def footer (build : Build) : Html :=
  node "footer" "footer"
    [node "div" "footer-row"
      [labelled "span" (Catalog.builtin.size.repr ++ " lessons | " ++ Tab.all.length.repr ++ " tabs"),
       node "span" "footer-build"
        [.text ("Build: " ++ build.host ++ "@" ++ build.commit ++ " " ++ build.time)]]]

open Html in
/-- There is no page for a lesson that the builtin catalog does not have. -/
def page? (app : App) (build : Build) : Option Html :=
  app.panel?.map fun panel =>
    node "div" "app"
      [header,
       node "main" "main"
        [Page.lessonButtons app.session.selection.lesson, Page.tabButtons app.session.selection.tab,
         panel],
       footer build]

end App

end TestScript
