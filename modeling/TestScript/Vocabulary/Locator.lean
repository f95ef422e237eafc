namespace TestScript

inductive Strategy where
  | url
  | css
  | xpath
  | id
  | name
  | linkText
  | jsonPath
  | endpoint
  | sql
  deriving DecidableEq, Repr

/-- Every strategy, in the order in which they are offered. -/
def Strategy.all : List Strategy :=
  [.url, .css, .xpath, .id, .name, .linkText, .jsonPath, .endpoint, .sql]

def Strategy.label : Strategy → String
  | .url => "URL"
  | .css => "CSS"
  | .xpath => "XPath"
  | .id => "ID"
  | .name => "Name"
  | .linkText => "Link Text"
  | .jsonPath => "JSONPath"
  | .endpoint => "Endpoint"
  | .sql => "SQL"

def Strategy.ofLabel? (text : String) : Option Strategy :=
  Strategy.all.find? (·.label = text)

theorem Strategy.mem_all (s : Strategy) : s ∈ Strategy.all := by cases s <;> decide

theorem Strategy.ofLabel?_label (s : Strategy) : Strategy.ofLabel? s.label = some s := by
  cases s <;> decide

theorem Strategy.ofLabel?_eq_some_iff {text : String} {s : Strategy} :
    Strategy.ofLabel? text = some s ↔ s.label = text := by
  constructor
  · intro h
    simpa using List.find?_some h
  · rintro rfl
    exact s.ofLabel?_label

/-- How the text that points at the target of a step is to be understood. Any text names a kind. -/
inductive LocatorKind where
  | known (strategy : Strategy)
  | custom (name : String)
  deriving DecidableEq, Repr

namespace LocatorKind

/-- The known kinds, in the order in which they are offered. -/
def all : List LocatorKind := Strategy.all.map .known

def label : LocatorKind → String
  | .known strategy => strategy.label
  | .custom name => name

/-- Labels are matched exactly, case and blanks included. -/
def ofLabel (text : String) : LocatorKind :=
  match Strategy.ofLabel? text with
  | some strategy => .known strategy
  | none => .custom text

/-- The kind that reading its own label gives back. -/
def Canonical (k : LocatorKind) : Prop := ofLabel k.label = k

instance (k : LocatorKind) : Decidable k.Canonical := inferInstanceAs (Decidable (_ = _))

@[simp] theorem label_ofLabel (text : String) : (ofLabel text).label = text := by
  unfold ofLabel
  split
  · next strategy h => exact Strategy.ofLabel?_eq_some_iff.1 h
  · rfl

@[simp] theorem ofLabel_label_known (strategy : Strategy) :
    ofLabel strategy.label = .known strategy := by
  simp [ofLabel, Strategy.ofLabel?_label]

theorem canonical_ofLabel (text : String) : (ofLabel text).Canonical := by
  simp [Canonical]

end LocatorKind

end TestScript
