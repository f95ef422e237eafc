import TestScript.Vocabulary.Action
import TestScript.Vocabulary.Locator

namespace TestScript

/-- One action on one target. -/
structure Step where
  id : String
  description : String
  action : Action
  kind : LocatorKind
  locator : String
  data : String
  expected : String
  deriving DecidableEq, Repr

namespace Step

/-- Stands in a field that has no meaning for the step. -/
def notApplicable : String := "-"

/-- The seven texts of a step, in the order in which they are shown and stored. -/
def texts (s : Step) : List String :=
  [s.id, s.description, s.action.label, s.kind.label, s.locator, s.data, s.expected]

/-- The step that the seven texts stand for. -/
def ofTexts? : List String → Option Step
  | [id, description, action, kind, locator, data, expected] =>
    some ⟨id, description, .ofLabel action, .ofLabel kind, locator, data, expected⟩
  | _ => none

/-- Neither the action nor the kind hides a known label in a custom text. -/
def Canonical (s : Step) : Prop := s.action.Canonical ∧ s.kind.Canonical

instance (s : Step) : Decidable s.Canonical := inferInstanceAs (Decidable (_ ∧ _))

@[simp] theorem length_texts (s : Step) : s.texts.length = 7 := rfl

theorem ofTexts?_texts {s : Step} (h : s.Canonical) : ofTexts? s.texts = some s := by
  obtain ⟨ha, hk⟩ := h
  simp only [ofTexts?, texts]
  rw [ha, hk]

end Step

end TestScript
