import TestScript.Proofs.Text.Splitting
import TestScript.Step.Spec

namespace TestScript

theorem Draft.mem_parts {d : Draft} {part : String} (h : part ∈ d.parts) :
    ∃ field, d.get field = part := by
  simp only [parts, List.mem_cons, List.not_mem_nil, or_false] at h
  rcases h with rfl | rfl | rfl | rfl | rfl | rfl
  · exact ⟨.action, rfl⟩
  · exact ⟨.kind, rfl⟩
  · exact ⟨.locator, rfl⟩
  · exact ⟨.data, rfl⟩
  · exact ⟨.expected, rfl⟩
  · exact ⟨.description, rfl⟩

namespace Spec

/-- Where the text of a field stands in a spec, counted from zero. -/
def place : Field → Nat
  | .action => 0
  | .kind => 1
  | .locator => 2
  | .data => 3
  | .expected => 4
  | .description => 5

/-- The text between the bars for a field; the empty text if the spec ends before it. -/
def text (spec : String) (field : Field) : String :=
  (parts spec).getD (place field) ""

/-- Three to six texts. -/
def Sized (spec : String) : Prop :=
  2 ≤ spec.toList.count bar ∧ spec.toList.count bar ≤ 5

instance (spec : String) : Decidable (Sized spec) := inferInstanceAs (Decidable (_ ∧ _))

def draft (spec : String) : Draft := .ofTexts (text spec)

theorem length_parts (spec : String) : (parts spec).length = spec.toList.count bar + 1 := by
  rw [parts, List.length_map, Text.length_splitOn]

theorem bar_not_mem_of_mem_parts {spec part : String} (h : part ∈ parts spec) :
    bar ∉ part.toList := by
  obtain ⟨cs, hcs, rfl⟩ := List.mem_map.1 h
  rw [String.toList_ofList]
  exact Text.not_mem_of_mem_splitOn hcs

theorem parts_ofParts {texts : List String} (present : texts ≠ [])
    (barless : ∀ text ∈ texts, bar ∉ text.toList) : parts (ofParts texts) = texts :=
  Text.map_ofList_splitOn_intercalate present barless

theorem ofParts_parts (spec : String) : ofParts (parts spec) = spec := by
  have texts : (parts spec).map String.toList = spec.toList.splitOn bar := by
    simp [parts, Function.comp_def]
  apply String.toList_injective
  rw [ofParts, String.toList_intercalate, String.toList_singleton, texts]
  exact List.intercalate_splitOn bar

theorem parts_ne_nil (spec : String) : parts spec ≠ [] := by
  rw [← List.length_pos_iff, length_parts]
  exact Nat.succ_pos _

/-- The parts are the only texts without bars that make the spec with bars between them. -/
theorem parts_eq_iff {spec : String} {texts : List String} :
    parts spec = texts ↔
      spec = ofParts texts ∧ texts ≠ [] ∧ ∀ text ∈ texts, bar ∉ text.toList := by
  constructor
  · rintro rfl
    exact ⟨(ofParts_parts spec).symm, parts_ne_nil spec, fun _ => bar_not_mem_of_mem_parts⟩
  · rintro ⟨rfl, present, barless⟩
    exact parts_ofParts present barless

theorem sized_iff {spec : String} :
    Sized spec ↔ 3 ≤ (parts spec).length ∧ (parts spec).length ≤ 6 := by
  rw [length_parts, Sized]
  omega

theorem take_three_parts {spec : String} (h : Sized spec) :
    (parts spec).take 3 = [text spec .action, text spec .kind, text spec .locator] := by
  obtain ⟨least, _⟩ := sized_iff.1 h
  match cut : parts spec, least with
  | first :: second :: third :: rest, _ => simp [text, cut, place]

theorem ofSpec_of_sized {spec : String} (h : Sized spec) : Draft.ofSpec spec = .ok (draft spec) :=
  if_pos (sized_iff.1 h)

theorem ofSpec_of_not_sized {spec : String} (h : ¬ Sized spec) :
    Draft.ofSpec spec = .error (.malformedSpec spec) :=
  if_neg (mt sized_iff.2 h)

end Spec

end TestScript
