import TestScript.Fault
import TestScript.Step.Draft
import TestScript.Text
import TestScript.Vocabulary.Fit

namespace TestScript

/-- What the ids of committed steps begin with. -/
def Step.customIdStart : String := "TC-CUSTOM-"

/-- The id of the `n`th step that is committed. -/
def Step.customId (n : Nat) : String :=
  customIdStart ++ Text.padStart 3 '0' n.repr

/-- A draft, and the steps committed from earlier drafts. Steps are only ever appended. -/
structure Form where
  draft : Draft := {}
  steps : List Step := []
  /-- How many ids have been given out. -/
  issued : Nat := 0
  deriving DecidableEq, Repr

namespace Form

def edit (form : Form) (field : Field) (text : String) : Form :=
  { form with draft := form.draft.set field text }

/-- Writes every field from a draft. -/
def fill (form : Form) (source : Draft) : Form :=
  Field.all.foldl (fun form field => form.edit field (source.get field)) form

/-- Appends the step of the draft and starts an empty draft. -/
def accept (form : Form) : Step × Form :=
  let step := form.draft.toStep (Step.customId (form.issued + 1))
  (step, { draft := {}, steps := form.steps ++ [step], issued := form.issued + 1 })

/-- The committed step and the form after it, or the fields that are missing. -/
def submit (form : Form) : Except Fault (Step × Form) :=
  match form.draft.missing with
  | [] => .ok form.accept
  | missing => .error (.missingFields missing)

/-- Whether the commit was accepted, and the form after it. -/
def commit (form : Form) : Bool × Form :=
  match form.submit with
  | .ok (_, next) => (true, next)
  | .error _ => (false, form)

/-- What a user has to fill in before a commit can succeed. -/
def hint? (form : Form) : Option String :=
  match form.draft.missing with
  | [] => none
  | missing => some ("Fill in: " ++ Field.labels missing)

/-- The kinds to choose from for the action in the draft. -/
def kinds (form : Form) : List LocatorKind :=
  (Action.ofLabel form.draft.action).offered

/-- The kind in the draft is among those to choose from for the action; an empty one always is. -/
def Offers (form : Form) (action : String) : Prop :=
  form.draft.kind = "" ∨ form.draft.kind ∈ (Action.ofLabel action).offered.map LocatorKind.label

instance (form : Form) (action : String) : Decidable (form.Offers action) :=
  inferInstanceAs (Decidable (_ ∨ _))

/-- Of the fields that are written, each has the text of the source; the others keep theirs. -/
theorem foldl_edit (fields : List Field) (source : Draft) (form : Form) :
    fields.foldl (fun form field => form.edit field (source.get field)) form =
      { form with draft := .ofTexts fun field =>
          if field ∈ fields then source.get field else form.draft.get field } := by
  induction fields generalizing form with
  | nil => rfl
  | cons field fields ih =>
    rw [List.foldl_cons, ih]
    simp only [edit, mk.injEq, and_true]
    apply Draft.ext_get
    intro other
    by_cases later : other ∈ fields
    · simp [later]
    · by_cases now : other = field
      · simp [now]
      · simp [later, now]

/-- Nothing is left of the draft that was there. -/
theorem fill_eq (form : Form) (source : Draft) :
    form.fill source = { form with draft := source } := by
  rw [fill, foldl_edit]
  simp only [mk.injEq, and_true]
  apply Draft.ext_get
  intro field
  simp [field.mem_all]

theorem submit_of_missing_eq_nil {form : Form} (h : form.draft.missing = []) :
    form.submit = .ok form.accept := by
  simp [submit, h]

theorem submit_of_missing_ne_nil {form : Form} (h : form.draft.missing ≠ []) :
    form.submit = .error (.missingFields form.draft.missing) := by
  unfold submit
  split
  · contradiction
  · rfl

theorem submit_eq_ok_iff {form next : Form} {step : Step} :
    form.submit = .ok (step, next) ↔ form.draft.missing = [] ∧ form.accept = (step, next) := by
  by_cases ready : form.draft.missing = []
  · simp [submit_of_missing_eq_nil ready, ready]
  · simp [submit_of_missing_ne_nil ready, ready]

theorem commit_of_missing_eq_nil {form : Form} (h : form.draft.missing = []) :
    form.commit = (true, form.accept.2) := by
  simp [commit, submit_of_missing_eq_nil h]

theorem commit_of_missing_ne_nil {form : Form} (h : form.draft.missing ≠ []) :
    form.commit = (false, form) := by
  simp [commit, submit_of_missing_ne_nil h]

end Form

end TestScript
