namespace TestScript

/-- The actions a script line can be written for. -/
inductive Verb where
  | navigate
  | type
  | click
  | wait
  | expect
  | request
  | query
  | spider
  | scan
  | review
  | rescan
  deriving DecidableEq, Repr

/-- Every verb, in the order in which they are listed. -/
def Verb.all : List Verb :=
  [.navigate, .type, .click, .wait, .expect, .request, .query, .spider, .scan, .review, .rescan]

def Verb.label : Verb → String
  | .navigate => "Navigate"
  | .type => "Type"
  | .click => "Click"
  | .wait => "Wait"
  | .expect => "Assert"
  | .request => "API Request"
  | .query => "Query"
  | .spider => "Spider Scan"
  | .scan => "Active Scan"
  | .review => "Review"
  | .rescan => "Re-scan"

def Verb.ofLabel? (text : String) : Option Verb :=
  Verb.all.find? (·.label = text)

theorem Verb.ofLabel?_label (v : Verb) : Verb.ofLabel? v.label = some v := by
  cases v <;> decide

theorem Verb.ofLabel?_eq_some_iff {text : String} {v : Verb} :
    Verb.ofLabel? text = some v ↔ v.label = text := by
  constructor
  · intro h
    simpa using List.find?_some h
  · rintro rfl
    exact v.ofLabel?_label

/-- Every text is an action. A custom action may carry the label of a verb; it stays custom until
its label is read again. -/
inductive Action where
  | known (verb : Verb)
  | custom (name : String)
  deriving DecidableEq, Repr

namespace Action

def known? : Action → Option Verb
  | .known verb => some verb
  | .custom _ => none

def label : Action → String
  | .known verb => verb.label
  | .custom name => name

/-- Labels are matched exactly, case and blanks included. -/
def ofLabel (text : String) : Action :=
  match Verb.ofLabel? text with
  | some verb => .known verb
  | none => .custom text

/-- The action that reading its own label gives back. -/
def Canonical (a : Action) : Prop := ofLabel a.label = a

instance (a : Action) : Decidable a.Canonical := inferInstanceAs (Decidable (_ = _))

@[simp] theorem label_ofLabel (text : String) : (ofLabel text).label = text := by
  unfold ofLabel
  split
  · next verb h => exact Verb.ofLabel?_eq_some_iff.1 h
  · rfl

@[simp] theorem ofLabel_label_known (verb : Verb) : ofLabel verb.label = .known verb := by
  simp [ofLabel, Verb.ofLabel?_label]

theorem canonical_ofLabel (text : String) : (ofLabel text).Canonical := by
  simp [Canonical]

end Action

end TestScript
