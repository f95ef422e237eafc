import TestScript.Proofs.Form.Commit
import TestScript.Script

namespace TestScript

namespace Script

theorem ofSteps_singleton (step : Step) : ofSteps [step] = step.entry := by
  simp [ofSteps]

theorem ofSteps_eq_empty_iff {steps : List Step} : ofSteps steps = "" ↔ steps = [] := by
  constructor
  · intro empty
    cases steps with
    | nil => rfl
    | cons step steps =>
      by_cases last : steps = []
      · subst last
        exact absurd (ofSteps_singleton step ▸ empty) step.entry_ne_empty
      · have apart : ofSteps (step :: steps) = ofSteps [step] ++ separator ++ ofSteps steps :=
          ofSteps_append (List.cons_ne_nil step []) last
        simp [apart, separator] at empty
  · rintro rfl
    exact ofSteps_nil

/-- Later steps leave the text of the earlier ones as it is, and add some of their own. -/
theorem exists_ofSteps_append (steps more : List Step) :
    ∃ added, ofSteps (steps ++ more) = ofSteps steps ++ added ∧ (added = "" ↔ more = []) := by
  by_cases first : steps = []
  · subst first
    exact ⟨ofSteps more, by simp, ofSteps_eq_empty_iff⟩
  · by_cases last : more = []
    · subst last
      exact ⟨"", by simp, by simp⟩
    · refine ⟨separator ++ ofSteps more, ?_, ?_⟩
      · rw [ofSteps_append first last, String.append_assoc]
      · simp [separator, last]

end Script

namespace Session

theorem exists_steps_run (s : Session) (events : List Event) :
    ∃ more, (s.run events).form.steps = s.form.steps ++ more ∧
      (more = [] ↔ s.accepted events = 0) := by
  obtain ⟨more, grown⟩ := s.steps_prefix_run events
  have length := s.length_steps_run events
  rw [← grown, List.length_append] at length
  refine ⟨more, grown.symm, ?_⟩
  rw [← List.length_eq_zero_iff]
  omega

/-- The script of a sequence is the entries of its steps with a blank line between two of them, and
empty for no other sequence than the empty one. What the script of a session has, later events leave
to it; they add nothing only if they commit nothing. -/
theorem script_run_grows :
    (∀ first second, Script.ofSteps (first ++ second) =
      if first = [] then Script.ofSteps second
      else if second = [] then Script.ofSteps first
      else Script.ofSteps first ++ "\n\n" ++ Script.ofSteps second) ∧
    (∀ step : Step, Script.ofSteps [step] = "// " ++ step.description ++ "\n" ++ step.line) ∧
    (∀ steps, Script.ofSteps steps = "" ↔ steps = []) ∧
    ∀ (s : Session) (events : List Event),
      let before := Script.ofSteps s.form.steps
      let after := Script.ofSteps (s.run events).form.steps
      (∃ added, after = before ++ added) ∧
      (after = before ↔ ∀ earlier later, events = earlier ++ .commit :: later →
        (s.run earlier).form.commit.1 = false) := by
  refine ⟨?_, Script.ofSteps_singleton, fun _ => Script.ofSteps_eq_empty_iff, ?_⟩
  · intro first second
    split
    · next absent => rw [absent, List.nil_append]
    · next present =>
      split
      · next absent => rw [absent, List.append_nil]
      · next present' => exact Script.ofSteps_append present present'
  · intro s events before after
    obtain ⟨more, grown, more_iff⟩ := s.exists_steps_run events
    obtain ⟨added, text, added_iff⟩ := Script.exists_ofSteps_append s.form.steps more
    have after_eq : after = before ++ added := (congrArg Script.ofSteps grown).trans text
    refine ⟨⟨added, after_eq⟩, ?_⟩
    rw [after_eq, String.append_eq_left_iff, added_iff, more_iff, accepted_eq_zero_iff]

end Session

end TestScript
