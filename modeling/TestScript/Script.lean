import TestScript.Step.Basic

/-!
The script of a sequence of steps. A verb fixes what opens and closes the line of a step; between
the two stands the argument, taken from the step as it is, without quoting.
-/

namespace TestScript

namespace Verb

def opening : Verb → String
  | .navigate => "browser.goto("
  | .type => "setValue("
  | .click => "click("
  | .wait => "pause("
  | .expect => "expectText("
  | .request => "request("
  | .query => "db.query("
  | .spider => "spider.scan("
  | .scan => "ascan.scan("
  | .review => "core.alerts("
  | .rescan => "ascan.scan("

def closing : Verb → String
  | .request => ", method=GET)"
  | .rescan => ", recurse=true)"
  | _ => ")"

/-- What a line of this verb says about the step. -/
def argument (v : Verb) (s : Step) : String :=
  match v with
  | .type => s.locator ++ ", " ++ s.data
  | .wait => s.data
  | .expect => s.locator ++ ", " ++ s.expected
  | _ => s.locator

end Verb

/-- The line for an action that has no verb: a comment that names it. -/
def remark (action locator : String) : String :=
  "// Action: " ++ action ++ ", Locator: " ++ locator

namespace Step

def line (s : Step) : String :=
  match s.action with
  | .known verb => verb.opening ++ verb.argument s ++ verb.closing
  | .custom name => remark name s.locator

/-- The description as a comment, and below it the line. -/
def entry (s : Step) : String :=
  "// " ++ s.description ++ "\n" ++ s.line

theorem line_of_known {s : Step} {verb : Verb} (h : s.action = .known verb) :
    s.line = verb.opening ++ verb.argument s ++ verb.closing := by
  simp [line, h]

theorem line_of_custom {s : Step} {name : String} (h : s.action = .custom name) :
    s.line = remark name s.locator := by
  simp [line, h]

theorem entry_ne_empty (s : Step) : s.entry ≠ "" := by
  simp [entry]

end Step

namespace Script

/-- A blank line between two entries. -/
def separator : String := "\n\n"

def ofSteps (steps : List Step) : String :=
  separator.intercalate (steps.map Step.entry)

/-- The texts between pairs of line feeds, which are taken from the left. -/
def cut : List Char → List (List Char)
  | [] => [[]]
  | '\n' :: '\n' :: rest => [] :: cut rest
  | c :: rest => (cut rest).modifyHead (c :: ·)

def parts (script : String) : List String :=
  (cut script.toList).map String.ofList

@[simp] theorem ofSteps_nil : ofSteps [] = "" := by
  simp [ofSteps]

theorem ofSteps_append {first second : List Step} (hf : first ≠ []) (hs : second ≠ []) :
    ofSteps (first ++ second) = ofSteps first ++ separator ++ ofSteps second := by
  simp only [ofSteps, List.map_append]
  rw [String.intercalate_append_of_ne_nil (by simpa using hf) (by simpa using hs)]

end Script

end TestScript
