import TestScript.Step.Basic
import TestScript.Vocabulary.Interface

namespace TestScript

/-- A step in the making, each field a text that may still be empty. -/
structure Draft where
  description : String := ""
  action : String := ""
  kind : String := ""
  locator : String := ""
  data : String := ""
  expected : String := ""
  deriving DecidableEq, Repr

namespace Draft

def empty : Draft := {}

def ofTexts (text : Field → String) : Draft :=
  ⟨text .description, text .action, text .kind, text .locator, text .data, text .expected⟩

def get (d : Draft) : Field → String
  | .description => d.description
  | .action => d.action
  | .kind => d.kind
  | .locator => d.locator
  | .data => d.data
  | .expected => d.expected

def set (d : Draft) (field : Field) (text : String) : Draft :=
  match field with
  | .description => { d with description := text }
  | .action => { d with action := text }
  | .kind => { d with kind := text }
  | .locator => { d with locator := text }
  | .data => { d with data := text }
  | .expected => { d with expected := text }

def IsEmpty (d : Draft) : Prop := ∀ field ∈ Field.all, d.get field = ""

instance (d : Draft) : Decidable d.IsEmpty := List.decidableBAll _ _

/-- The required fields that hold no text yet. -/
def missing (d : Draft) : List Field :=
  Field.required.filter (d.get · == "")

/-- The step a complete draft stands for. Without a description it is described by its action. -/
def toStep (d : Draft) (id : String) : Step where
  id := id
  description := if d.description = "" then d.action else d.description
  action := .ofLabel d.action
  kind := .ofLabel d.kind
  locator := d.locator
  data := d.data
  expected := d.expected

@[simp] theorem get_empty (field : Field) : empty.get field = "" := by cases field <;> rfl

@[simp] theorem get_ofTexts (text : Field → String) (field : Field) :
    (ofTexts text).get field = text field := by
  cases field <;> rfl

@[simp] theorem get_set (d : Draft) (field other : Field) (text : String) :
    (d.set field text).get other = if other = field then text else d.get other := by
  cases field <;> cases other <;> rfl

theorem ext_get {d e : Draft} (h : ∀ field, d.get field = e.get field) : d = e := by
  cases d
  cases e
  simp only [mk.injEq]
  exact ⟨h .description, h .action, h .kind, h .locator, h .data, h .expected⟩

theorem missing_eq_nil_iff {d : Draft} :
    d.missing = [] ↔ d.action ≠ "" ∧ d.kind ≠ "" ∧ d.locator ≠ "" := by
  simp [missing, Field.required, get]

end Draft

end TestScript
