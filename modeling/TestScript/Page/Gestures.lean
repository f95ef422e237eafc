import TestScript.Page.App

namespace TestScript

namespace App

/-- A gesture that the page has no place for does nothing. -/
def attempt (app : App) (gesture : Gesture) : App :=
  (app.perform? gesture).getD app

def run (app : App) (gestures : List Gesture) : App :=
  gestures.foldl attempt app

/-- The gestures that the page had a place for when they were made. -/
def performed (app : App) : List Gesture → List Gesture
  | [] => []
  | gesture :: gestures =>
    if app.Shows gesture then gesture :: (app.attempt gesture).performed gestures
    else app.performed gestures

@[simp] theorem run_cons (app : App) (gesture : Gesture) (gestures : List Gesture) :
    app.run (gesture :: gestures) = (app.attempt gesture).run gestures := rfl

variable {app : App} {gesture : Gesture}

theorem attempt_of_shows (h : app.Shows gesture) : app.attempt gesture = app.perform gesture := by
  simp [attempt, perform?, h]

theorem attempt_of_not_shows (h : ¬ app.Shows gesture) : app.attempt gesture = app := by
  simp [attempt, perform?, h]

end App

/-- The events of the gestures in a row. The session that an edit finds decides what it means. -/
def Session.dispatched (s : Session) : List Gesture → List Event
  | [] => []
  | .selectLesson lesson :: rest =>
    .selectLesson lesson :: (s.apply (.selectLesson lesson)).dispatched rest
  | .selectTab tab :: rest => .selectTab tab :: (s.apply (.selectTab tab)).dispatched rest
  | .edit field text :: rest =>
    s.edits field text ++ (s.run (s.edits field text)).dispatched rest
  | .commit :: rest => .commit :: (s.apply .commit).dispatched rest

end TestScript
