import TestScript.Proofs.Form.Batch

namespace TestScript

namespace Step

/-- No text of the step would be cut in a spec. -/
def Barless (s : Step) : Prop := ∀ field, Spec.bar ∉ (s.draft.get field).toList

theorem toSpec_eq (s : Step) :
    s.toSpec = s.action.label ++ "|" ++ s.kind.label ++ "|" ++ s.locator ++ "|" ++ s.data ++ "|" ++
      s.expected ++ "|" ++ s.description := by
  have bar : String.singleton Spec.bar = "|" := rfl
  simp only [toSpec, Spec.ofParts, bar, String.intercalate_cons_cons, String.intercalate_singleton,
    String.append_assoc]

theorem Barless.parts_toSpec {s : Step} (h : s.Barless) : Spec.parts s.toSpec = s.draft.parts := by
  apply Spec.parts_ofParts (List.cons_ne_nil _ _)
  intro part hp
  obtain ⟨field, rfl⟩ := Draft.mem_parts (d := s.draft) hp
  exact h field

end Step

namespace Spec

theorem bar_not_mem_text (spec : String) (field : Field) : bar ∉ (text spec field).toList := by
  by_cases there : place field < (parts spec).length
  · have here : text spec field = (parts spec)[place field] := by
      simp [text, there]
    rw [here]
    exact bar_not_mem_of_mem_parts (List.getElem_mem there)
  · have off : text spec field = "" := by
      simp [text, Nat.le_of_not_lt there]
    simp [off]

/-- The texts of the step are those of the spec, but for a description that was left off. -/
theorem get_draft_step (spec : String) (n : Nat) (field : Field) :
    (step spec n).draft.get field =
      if field = .description ∧ text spec .description = "" then text spec .action
      else text spec field := by
  by_cases off : text spec .description = "" <;> cases field <;>
    simp [step, Step.draft, Draft.toStep, Draft.get, draft, Draft.ofTexts, off]

theorem barless_step (spec : String) (n : Nat) : (step spec n).Barless := by
  intro field
  rw [get_draft_step]
  split
  · exact bar_not_mem_text spec .action
  · exact bar_not_mem_text spec field

theorem draft_toSpec {s : Step} (h : s.Barless) : draft s.toSpec = s.draft := by
  have texts := h.parts_toSpec
  apply Draft.ext_get
  intro field
  rw [draft, Draft.get_ofTexts, text, texts]
  cases field <;> rfl

theorem sized_toSpec {s : Step} (h : s.Barless) : Sized s.toSpec := by
  have length : (parts s.toSpec).length = 6 := by
    rw [h.parts_toSpec]
    rfl
  rw [sized_iff]
  omega

theorem acceptable_toSpec {s : Step} (barless : s.Barless) (written : s.Written) :
    Acceptable s.toSpec := by
  have ready : (draft s.toSpec).missing = [] := by
    rw [draft_toSpec barless]
    exact written.missing_draft
  exact ⟨sized_toSpec barless, missing_draft_eq_nil_iff.1 ready⟩

theorem step_toSpec {s : Step} (barless : s.Barless) (written : s.Written) (n : Nat) :
    step s.toSpec n = { s with id := Step.customId n } := by
  rw [step, draft_toSpec barless, written.toStep_draft]

end Spec

namespace Batch

theorem barless_ofSpecs {specs : List String} {s : Step} (h : s ∈ (ofSpecs specs).steps) :
    s.Barless := by
  rw [steps_ofSpecs] at h
  obtain ⟨n, _, rfl⟩ := List.mem_mapIdx.1 h
  exact Spec.barless_step _ _

theorem acceptable_of_mem_specs {specs : List String} {spec : String}
    (h : spec ∈ (ofSpecs specs).steps.map Step.toSpec) : Spec.Acceptable spec := by
  obtain ⟨s, hs, rfl⟩ := List.mem_map.1 h
  exact Spec.acceptable_toSpec (barless_ofSpecs hs) ((numbered_ofSpecs specs).written s hs)

/-- Numbered anew from one, the specs of the steps give back each step with the id it had. -/
theorem mapIdx_step_toSpec (specs : List String) :
    ((ofSpecs specs).steps.map Step.toSpec).mapIdx (fun n spec => Spec.step spec (n + 1)) =
      (ofSpecs specs).steps := by
  have numbered := numbered_ofSpecs specs
  apply List.ext_getElem
  · simp
  · intro n _ hn
    have mem := List.getElem_mem hn
    have id : (ofSpecs specs).steps[n].id = Step.customId (n + 1) := numbered.id_getElem hn
    rw [List.getElem_mapIdx, List.getElem_map,
      Spec.step_toSpec (barless_ofSpecs mem) (numbered.written _ mem), ← id]

/-- What was made from specs is made again, and without a rejection, from the specs of its steps. -/
theorem ofSpecs_toSpec (specs : List String) :
    let steps := (ofSpecs specs).steps
    let rebuilt := ofSpecs (steps.map fun s =>
      s.action.label ++ "|" ++ s.kind.label ++ "|" ++ s.locator ++ "|" ++ s.data ++ "|" ++
        s.expected ++ "|" ++ s.description)
    rebuilt.steps = steps ∧ rebuilt.rejections = [] := by
  intro steps rebuilt
  have written : rebuilt = ofSpecs (steps.map Step.toSpec) :=
    congrArg ofSpecs (List.map_congr_left fun s _ => s.toSpec_eq.symm)
  have acceptable : ∀ spec ∈ steps.map Step.toSpec, Spec.Acceptable spec :=
    fun _ h => acceptable_of_mem_specs h
  rw [written]
  constructor
  · have all : (steps.map Step.toSpec).filter (Spec.Acceptable ·) = steps.map Step.toSpec :=
      List.filter_eq_self.2 fun spec h => decide_eq_true (acceptable spec h)
    rw [steps_ofSpecs, all]
    exact mapIdx_step_toSpec specs
  · rw [(accounts_ofSpecs _).rejections, List.map_eq_nil_iff, List.filter_eq_nil_iff]
    intro spec h
    simpa using acceptable spec h

end Batch

end TestScript
