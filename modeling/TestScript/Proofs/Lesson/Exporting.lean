import TestScript.Proofs.Step.RoundTrip

namespace TestScript

namespace Step

theorem reread_of_canonical {s : Step} (h : s.Canonical) : s.reread = s := reread_eq_iff.2 h

theorem printable_array_toJson (steps : List Step) :
    ∀ token ∈ (Json.array (steps.map toJson)).tokens, token.Printable :=
  Json.printable_array (List.forall_mem_map.2 fun s _ => s.printable_toJson)

/-- A step is told by its value but for its labels, which are read again. -/
theorem map_reread_eq {first second : List Step} (same : first.map toJson = second.map toJson) :
    first.map reread = second.map reread := by
  have read := congrArg (List.map ofJson?) same
  simp only [List.map_map, Function.comp_def, ofJson?_toJson] at read
  have inj : Function.Injective (List.map (some : Step → Option Step)) :=
    List.map_injective_iff.2 fun _ _ => Option.some.inj
  apply inj
  simpa [Function.comp_def] using read

theorem map_texts_eq {first second : List Step} (same : first.map toJson = second.map toJson) :
    first.map texts = second.map texts := by
  have read := congrArg (List.map texts) (map_reread_eq same)
  simpa [Function.comp_def, texts_reread] using read

theorem eq_of_canonical {first second : List Step} (same : first.map toJson = second.map toJson)
    (hf : ∀ s ∈ first, s.Canonical) (hs : ∀ s ∈ second, s.Canonical) : first = second := by
  have read := map_reread_eq same
  rwa [List.map_congr_left fun s h => reread_of_canonical (hf s h),
    List.map_congr_left fun s h => reread_of_canonical (hs s h), List.map_id', List.map_id'] at read

theorem map_toJson_eq_of_wideText_eq {first second : List Step}
    (same : (Json.array (first.map toJson)).wideText = (Json.array (second.map toJson)).wideText) :
    first.map toJson = second.map toJson := by
  have values := Json.eq_of_wideText_eq (printable_array_toJson first)
    (printable_array_toJson second) same
  exact Json.array.inj values

end Step

namespace Lesson

theorem printable_toJson (lesson : Lesson) : ∀ token ∈ lesson.toJson.tokens, token.Printable := by
  have steps := Step.printable_array_toJson lesson.steps
  simpa [toJson, Json.tokens, Json.memberTokens, Json.ofText, Json.Token.Printable, or_imp,
    forall_and] using steps

theorem eq_of_wideText_eq {first second : Lesson}
    (same : first.toJson.wideText = second.toJson.wideText) :
    first.title = second.title ∧ first.steps.map Step.toJson = second.steps.map Step.toJson := by
  have values := Json.eq_of_wideText_eq first.printable_toJson second.printable_toJson same
  simpa [toJson, Json.ofText] using values

end Lesson

/-- Sequences with the same wide text have the same texts step by step, and are equal if no custom
label in them hides a known one, as none does in a sequence from a form. Lessons with the same wide
text have the same title too. -/
theorem Step.wideText_lossless :
    (∀ first second : List Step,
      (Json.array (first.map toJson)).wideText = (Json.array (second.map toJson)).wideText →
        first.length = second.length ∧ first.map texts = second.map texts ∧
        ((∀ s ∈ first, s.Canonical) → (∀ s ∈ second, s.Canonical) → first = second)) ∧
    (∀ form next step, Form.submit form = .ok (step, next) → step.Canonical) ∧
    (∀ first second : Lesson, first.toJson.wideText = second.toJson.wideText →
      first.title = second.title ∧ first.steps.length = second.steps.length ∧
      first.steps.map texts = second.steps.map texts) := by
  refine ⟨?_, ?_, ?_⟩
  · intro first second same
    have values := map_toJson_eq_of_wideText_eq same
    exact ⟨by simpa using congrArg List.length values, map_texts_eq values, eq_of_canonical values⟩
  · intro form next step committed
    obtain ⟨_, accepted⟩ := Form.submit_eq_ok_iff.1 committed
    have made : form.accept.1 = step := congrArg Prod.fst accepted
    rw [← made]
    exact canonical_toStep _ _
  · intro first second same
    obtain ⟨title, values⟩ := Lesson.eq_of_wideText_eq same
    exact ⟨title, by simpa using congrArg List.length values, map_texts_eq values⟩

namespace Step

/-- A step whose texts look like the ends of strings, members and objects. -/
def forged : Step :=
  ⟨"\",\n    \"description\": \"", "\\\"", .known .click, .custom "\x00]", "\x7d", "é\u2028", ""⟩

/-- The same texts, with a known label in a custom action. -/
def disguised : Step := { forged with action := .custom "Click" }

theorem disguised_lossless :
    (Json.array ([forged, disguised].map toJson)).wideText =
      (Json.array ([disguised, forged].map toJson)).wideText ∧
    [forged, disguised].map texts = [disguised, forged].map texts ∧ forged ≠ disguised ∧
    (∀ s ∈ [forged], s.Canonical) ∧ (∀ s ∈ [disguised.reread], s.Canonical) ∧
    [forged] = [disguised.reread] ∧
    (∃ step next, Form.submit { draft := forged.draft } = .ok (step, next) ∧ step.Canonical) ∧
    (⟨"\"", [forged]⟩ : Lesson).toJson.wideText = (⟨"\"", [disguised]⟩ : Lesson).toJson.wideText ∧
    [forged].map texts = [disguised].map texts := by
  obtain ⟨sequences, committed, lessons⟩ := wideText_lossless
  have swapped := sequences [forged, disguised] [disguised, forged] rfl
  have first : ∀ s ∈ [forged], s.Canonical := by decide
  have second : ∀ s ∈ [disguised.reread], s.Canonical := by decide
  have equal := (sequences [forged] [disguised.reread] rfl).2.2 first second
  have accepted : Form.submit { draft := forged.draft } = .ok (Form.accept { draft := forged.draft }) :=
    Form.submit_of_missing_eq_nil (by decide)
  have titled := lessons ⟨"\"", [forged]⟩ ⟨"\"", [disguised]⟩ rfl
  exact ⟨rfl, swapped.2.1, by decide, first, second, equal,
    ⟨_, _, accepted, committed _ _ _ accepted⟩, rfl, titled.2.2⟩

end Step

end TestScript
