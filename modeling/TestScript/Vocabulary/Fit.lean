import TestScript.Vocabulary.Action
import TestScript.Vocabulary.Locator

namespace TestScript

def Verb.strategies : Verb → List Strategy
  | .navigate | .spider | .scan | .review | .rescan => [.url]
  | .type | .wait => [.css, .xpath, .id, .name]
  | .click => [.css, .xpath, .id, .name, .linkText]
  | .expect => [.css, .xpath, .id, .jsonPath]
  | .request => [.endpoint]
  | .query => [.sql]

theorem Verb.strategies_ne_nil (v : Verb) : v.strategies ≠ [] := by cases v <;> decide

namespace Action

/-- The kinds that are meaningful for the action; none for a custom one. -/
def kinds : Action → List LocatorKind
  | .known verb => verb.strategies.map .known
  | .custom _ => []

/-- A custom action accepts any kind. -/
def Accepts (a : Action) (k : LocatorKind) : Prop := a.kinds = [] ∨ k ∈ a.kinds

instance (a : Action) (k : LocatorKind) : Decidable (a.Accepts k) :=
  inferInstanceAs (Decidable (_ ∨ _))

/-- The kinds to choose from when a step with this action is written. -/
def offered (a : Action) : List LocatorKind :=
  if a.kinds = [] then LocatorKind.all else a.kinds

theorem kinds_known_ne_nil (verb : Verb) : (known verb).kinds ≠ [] := by
  simpa [kinds] using verb.strategies_ne_nil

@[simp] theorem offered_custom (name : String) : (custom name).offered = LocatorKind.all := rfl

@[simp] theorem offered_known (verb : Verb) : (known verb).offered = (known verb).kinds :=
  if_neg (kinds_known_ne_nil verb)

@[simp] theorem accepts_custom (name : String) (k : LocatorKind) : (custom name).Accepts k :=
  .inl rfl

theorem accepts_known_iff {verb : Verb} {k : LocatorKind} :
    (known verb).Accepts k ↔ k ∈ (known verb).kinds := by
  simp [Accepts, kinds_known_ne_nil]

end Action

end TestScript
