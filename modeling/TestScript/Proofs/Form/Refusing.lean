import Mathlib.Data.List.TFAE
import TestScript.Proofs.Form.Commit

namespace TestScript

theorem Draft.missing_ne_nil_iff {d : Draft} :
    d.missing ≠ [] ↔ d.action = "" ∨ d.kind = "" ∨ d.locator = "" := by
  rw [ne_eq, missing_eq_nil_iff]
  simp only [ne_eq, Classical.not_and_iff_not_or_not, Classical.not_not]

theorem Draft.missing_empty : empty.missing = Field.required := by
  decide

namespace Form

variable {form : Form}

theorem submit_eq_error_iff {fault : Fault} :
    form.submit = .error fault ↔
      form.draft.missing ≠ [] ∧ fault = .missingFields form.draft.missing := by
  by_cases ready : form.draft.missing = []
  · simp [submit_of_missing_eq_nil ready, ready]
  · simp [submit_of_missing_ne_nil ready, ready, eq_comm]

theorem exists_submit_eq_error_iff :
    (∃ fault, form.submit = .error fault) ↔ form.draft.missing ≠ [] := by
  simp [submit_eq_error_iff]

theorem exists_hint?_eq_some_iff :
    (∃ text, form.hint? = some text) ↔ form.draft.missing ≠ [] := by
  simp [hint?_eq_some_iff]

/-- Every way to ask comes to the same answer. -/
theorem refused_tfae (form : Form) :
    [∃ fault, form.submit = .error fault,
      form.commit.1 = false,
      ∃ text, form.hint? = some text,
      form.draft.missing ≠ [],
      form.draft.action = "" ∨ form.draft.kind = "" ∨ form.draft.locator = ""].TFAE := by
  apply List.tfae_of_forall (form.draft.missing ≠ [])
  intro answer among
  simp only [List.mem_cons, List.not_mem_nil, or_false] at among
  rcases among with rfl | rfl | rfl | rfl | rfl
  · exact exists_submit_eq_error_iff
  · exact commit_refuses_iff
  · exact exists_hint?_eq_some_iff
  · exact Iff.rfl
  · exact Draft.missing_ne_nil_iff.symm

theorem commit_of_draft_empty (form : Form) (empty : form.draft = .empty) :
    form.submit = .error (.missingFields Field.required) ∧ form.commit = (false, form) := by
  have missing : form.draft.missing = Field.required := empty ▸ Draft.missing_empty
  have lacks : form.draft.missing ≠ [] := missing ▸ List.cons_ne_nil _ _
  exact ⟨missing ▸ submit_of_missing_ne_nil lacks, commit_of_missing_ne_nil lacks⟩

/-- A form is refused for its empty required fields and nothing else, and every answer names just
these, in the order of the form. A refusal changes nothing; otherwise one step goes to the end of
the sequence and one number is taken, and the draft is empty, so that a second commit is refused. -/
theorem submit_whole_or_not (form : Form) :
    let empty := [.action, .kind, .locator].filter (form.draft.get · = "")
    let labels := ", ".intercalate (empty.map Field.label)
    [∃ fault, form.submit = .error fault,
      form.commit.1 = false,
      ∃ text, form.hint? = some text,
      form.draft.missing ≠ [],
      form.draft.action = "" ∨ form.draft.kind = "" ∨ form.draft.locator = ""].TFAE ∧
    (form.commit.1 = false →
      (∃ fault, form.submit = .error fault ∧ fault = .missingFields empty ∧
        fault.message = "missing required field(s): " ++ labels) ∧
      form.hint? = some ("Fill in: " ++ labels) ∧
      form.commit.2 = form) ∧
    (form.commit.1 = true →
      ∃ step next, form.submit = .ok (step, next) ∧ form.commit.2 = next ∧ form.hint? = none ∧
        next.steps = form.steps ++ [step] ∧ next.issued = form.issued + 1 ∧
        (∀ field, next.draft.get field = "") ∧
        next.submit = .error (.missingFields [.action, .kind, .locator]) ∧
        next.commit = (false, next)) := by
  intro empty labels
  refine ⟨form.refused_tfae, ?_, ?_⟩
  · intro refused
    have lacks : form.draft.missing ≠ [] := commit_refuses_iff.1 refused
    have submitted : form.submit = .error (.missingFields empty) := submit_of_missing_ne_nil lacks
    have hint : form.hint? = some ("Fill in: " ++ labels) := hint?_eq_some_iff.2 ⟨lacks, rfl⟩
    have kept : form.commit.2 = form := congrArg Prod.snd (commit_of_missing_ne_nil lacks)
    exact ⟨⟨_, submitted, rfl, rfl⟩, hint, kept⟩
  · intro accepted
    have ready : form.draft.missing = [] := commit_accepts_iff.1 accepted
    have kept : form.commit.2 = form.accept.2 := congrArg Prod.snd (commit_of_missing_eq_nil ready)
    have again := form.accept.2.commit_of_draft_empty rfl
    exact ⟨form.accept.1, form.accept.2, submit_of_missing_eq_nil ready, kept,
      hint?_eq_none_iff.2 ready, rfl, rfl, Draft.get_empty, again⟩

example : ({ draft := { kind := "CSS" } } : Form).hint? = some "Fill in: Action, Locator" := by
  decide

end Form

end TestScript
