namespace TestScript

/-- The fields in which a step is written. -/
inductive Field where
  | description
  | action
  | kind
  | locator
  | data
  | expected
  deriving DecidableEq, Repr

namespace Field

/-- Every field, from the top of a form to its end. -/
def all : List Field := [.description, .action, .kind, .locator, .data, .expected]

/-- The fields without which there is no step, in the order of the form. -/
def required : List Field := [.action, .kind, .locator]

/-- The name of the field in stored documents and in forms. -/
def key : Field → String
  | .description => "description"
  | .action => "action"
  | .kind => "locatorKind"
  | .locator => "locator"
  | .data => "testData"
  | .expected => "expectedResult"

def label : Field → String
  | .description => "Description"
  | .action => "Action"
  | .kind => "Locator Type"
  | .locator => "Locator"
  | .data => "Test Data"
  | .expected => "Expected Result"

/-- The labels of the fields in their order, as a reader of messages sees them. -/
def labels (fields : List Field) : String :=
  ", ".intercalate (fields.map label)

theorem mem_all (f : Field) : f ∈ all := by cases f <;> decide

end Field

/-- The tabs under which steps are shown. -/
inductive Tab where
  /-- The table of a lesson. -/
  | learn
  /-- The form, and the table of the steps written with it. -/
  | practice
  /-- The script of a lesson. -/
  | script
  deriving DecidableEq, Repr

namespace Tab

def all : List Tab := [.learn, .practice, .script]

def label : Tab → String
  | .learn => "Learn"
  | .practice => "Practice"
  | .script => "Script"

theorem mem_all (t : Tab) : t ∈ all := by cases t <;> decide

end Tab

end TestScript
