import TestScript.Proofs.Step.Parts

namespace TestScript.Draft

theorem parts_inj {d e : Draft} : d.parts = e.parts ↔ d = e := by
  constructor
  · intro same
    rw [← ofParts_parts d, same, ofParts_parts]
  · rintro rfl
    rfl

theorem parts_ofParts {texts : List String} (short : texts.length ≤ 6) :
    (ofParts texts).parts = texts.rightpad 6 "" := by
  have inPlaces : (ofParts texts).parts = (List.range 6).map (texts.getD · "") := rfl
  rw [inPlaces, List.rightpad]
  apply List.ext_getElem
  · simp
    omega
  · intro n _ _
    by_cases there : n < texts.length
    · simp [there]
    · simp [Nat.le_of_not_lt there]

/-- The texts make the draft if they are its first ones and the others are empty. -/
theorem ofParts_eq_iff {texts : List String} {d : Draft} (short : texts.length ≤ 6) :
    ofParts texts = d ↔
      d.parts.take texts.length = texts ∧ ∀ text ∈ d.parts.drop texts.length, text = "" := by
  rw [← parts_inj, parts_ofParts short, List.rightpad]
  constructor
  · intro same
    rw [← same, List.take_left, List.drop_left]
    exact ⟨rfl, fun _ => List.eq_of_mem_replicate⟩
  · rintro ⟨kept, off⟩
    have empty : d.parts.drop texts.length = List.replicate (6 - texts.length) "" :=
      List.eq_replicate_iff.2 ⟨List.length_drop, off⟩
    calc texts ++ List.replicate (6 - texts.length) ""
        = d.parts.take texts.length ++ d.parts.drop texts.length := by rw [kept, empty]
      _ = d.parts := List.take_append_drop _ _

theorem ofSpec_eq_ok_iff {spec : String} {d : Draft} :
    ofSpec spec = .ok d ↔ Spec.Sized spec ∧ ofParts (Spec.parts spec) = d := by
  by_cases sized : Spec.Sized spec
  · have same : Spec.draft spec = ofParts (Spec.parts spec) := rfl
    simp [Spec.ofSpec_of_sized sized, sized, same]
  · simp [Spec.ofSpec_of_not_sized sized, sized]

theorem ofSpec_eq_error_iff {spec : String} {fault : Fault} :
    ofSpec spec = .error fault ↔ fault = .malformedSpec spec ∧ ¬ Spec.Sized spec := by
  by_cases sized : Spec.Sized spec
  · simp [Spec.ofSpec_of_sized sized, sized]
  · simp [Spec.ofSpec_of_not_sized sized, sized, eq_comm]

/-- The first `k` texts of the draft make the spec, and nothing of the draft is lost. -/
structure WrittenAs (d : Draft) (k : Nat) (spec : String) : Prop where
  spec_eq : spec = Spec.ofParts (d.parts.take k)
  barless : ∀ text ∈ d.parts.take k, Spec.bar ∉ text.toList
  off : ∀ text ∈ d.parts.drop k, text = ""

theorem writtenAs_of_ofSpec {spec : String} {d : Draft} (read : ofSpec spec = .ok d) :
    d.WrittenAs (Spec.parts spec).length spec := by
  obtain ⟨sized, made⟩ := ofSpec_eq_ok_iff.1 read
  obtain ⟨kept, off⟩ := (ofParts_eq_iff (Spec.sized_iff.1 sized).2).1 made
  refine ⟨?_, ?_, off⟩
  · rw [kept, Spec.ofParts_parts]
  · rw [kept]
    exact fun _ => Spec.bar_not_mem_of_mem_parts

theorem WrittenAs.ofSpec_eq {spec : String} {d : Draft} {k : Nat} (h : d.WrittenAs k spec)
    (least : 3 ≤ k) (most : k ≤ 6) : ofSpec spec = .ok d := by
  have length : (d.parts.take k).length = k :=
    List.length_take.trans (Nat.min_eq_left most)
  have present : d.parts.take k ≠ [] := by
    rw [← List.length_pos_iff, length]
    omega
  have cut : Spec.parts spec = d.parts.take k :=
    Spec.parts_eq_iff.2 ⟨h.spec_eq, present, h.barless⟩
  have sized : Spec.Sized spec := by
    rw [Spec.sized_iff, cut, length]
    exact ⟨least, most⟩
  have short : (d.parts.take k).length ≤ 6 := by omega
  have made : ofParts (Spec.parts spec) = d := by
    rw [cut, ofParts_eq_iff short, length]
    exact ⟨rfl, h.off⟩
  exact ofSpec_eq_ok_iff.2 ⟨sized, made⟩

theorem writtenAs_all {d : Draft} (barless : ∀ field, Spec.bar ∉ (d.get field).toList) :
    d.WrittenAs 6 (Spec.ofParts d.parts) := by
  refine ⟨rfl, ?_, fun _ h => (List.not_mem_nil h).elim⟩
  intro text h
  obtain ⟨field, rfl⟩ := mem_parts (List.mem_of_mem_take h)
  exact barless field

/-- A spec is read as a draft if and only if it is the first three to six texts of the draft, all
without bars, and the others are empty. It is refused if and only if it has fewer than two bars or
more than five. -/
theorem ofSpec_grammar (spec : String) (d : Draft) :
    let texts := [d.action, d.kind, d.locator, d.data, d.expected, d.description]
    (ofSpec spec = .ok d ↔ ∃ k, 3 ≤ k ∧ k ≤ 6 ∧
      spec = "|".intercalate (texts.take k) ∧
      (∀ text ∈ texts.take k, '|' ∉ text.toList) ∧
      ∀ text ∈ texts.drop k, text = "") ∧
    (∀ fault, ofSpec spec = .error fault ↔
      fault = .malformedSpec spec ∧ (spec.toList.count '|' < 2 ∨ 5 < spec.toList.count '|')) ∧
    ((∀ field, '|' ∉ (d.get field).toList) → ofSpec ("|".intercalate texts) = .ok d) := by
  intro texts
  refine ⟨⟨?_, ?_⟩, ?_, ?_⟩
  · intro read
    have written := writtenAs_of_ofSpec read
    obtain ⟨least, most⟩ := Spec.sized_iff.1 (ofSpec_eq_ok_iff.1 read).1
    exact ⟨_, least, most, written.spec_eq, written.barless, written.off⟩
  · rintro ⟨k, least, most, spec_eq, barless, off⟩
    have written : d.WrittenAs k spec := ⟨spec_eq, barless, off⟩
    exact written.ofSpec_eq least most
  · intro fault
    have unsized : ¬ Spec.Sized spec ↔
        spec.toList.count '|' < 2 ∨ 5 < spec.toList.count '|' := by
      rw [Spec.Sized, Spec.bar]
      omega
    rw [ofSpec_eq_error_iff, unsized]
  · intro barless
    exact (writtenAs_all barless).ofSpec_eq (by decide) (by decide)

/-- Blanks and line feeds belong to the texts, and any text may be empty. -/
def spaced : Draft := { action := " Type ", locator := "\n", description := "a\\b" }

theorem ofSpec_spaced :
    (∀ field, '|' ∉ (spaced.get field).toList) ∧ ofSpec " Type ||\n|||a\\b" = .ok spaced ∧
    ofSpec "||" = .ok {} ∧ ofSpec "||||||" = .error (.malformedSpec "||||||") := by
  have barless : ∀ field, '|' ∉ (spaced.get field).toList := by
    intro field
    cases field <;> decide
  obtain ⟨_, _, read⟩ := ofSpec_grammar "" spaced
  obtain ⟨⟨_, empty⟩, _⟩ := ofSpec_grammar "||" {}
  obtain ⟨_, refused, _⟩ := ofSpec_grammar "||||||" {}
  exact ⟨barless, read barless, empty ⟨3, by decide⟩, (refused _).2 (by decide)⟩

end TestScript.Draft
