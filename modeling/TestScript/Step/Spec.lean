import TestScript.Fault
import TestScript.Step.Draft

/-!
Specs: steps written in one line, the texts of the fields between bars. The first three fields must
be there, the rest may be left off from the end. Nothing is trimmed and a bar cannot be quoted.
-/

namespace TestScript

namespace Spec

def bar : Char := '|'

def parts (spec : String) : List String :=
  (spec.toList.splitOn bar).map String.ofList

def ofParts (parts : List String) : String :=
  (String.singleton bar).intercalate parts

end Spec

namespace Draft

/-- The texts of a draft in the order of a spec. -/
def parts (d : Draft) : List String :=
  [d.action, d.kind, d.locator, d.data, d.expected, d.description]

/-- The draft with these texts in the order of a spec; texts that are not there are empty. -/
def ofParts (parts : List String) : Draft where
  action := parts.getD 0 ""
  kind := parts.getD 1 ""
  locator := parts.getD 2 ""
  data := parts.getD 3 ""
  expected := parts.getD 4 ""
  description := parts.getD 5 ""

def ofSpec (spec : String) : Except Fault Draft :=
  let parts := Spec.parts spec
  if 3 ≤ parts.length ∧ parts.length ≤ 6 then .ok (ofParts parts) else .error (.malformedSpec spec)

@[simp] theorem ofParts_parts (d : Draft) : ofParts d.parts = d := rfl

end Draft

/-- The spec with all six fields of the step. -/
def Step.toSpec (s : Step) : String :=
  Spec.ofParts [s.action.label, s.kind.label, s.locator, s.data, s.expected, s.description]

end TestScript
