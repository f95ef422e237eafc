import TestScript.Script

/-!
Which steps have the same line. The opening of a line tells the action apart from all others, but
for the two verbs that scan; what stands between opening and closing is not quoted, so nothing but
these two can be told from it.
-/

namespace TestScript

/-- No opening is the beginning of another one, but the scans open alike. -/
theorem Verb.eq_or_scans_of_opening_prefix {v w : Verb}
    (h : v.opening.toList <+: w.opening.toList) :
    v = w ∨ v = .scan ∧ w = .rescan ∨ v = .rescan ∧ w = .scan := by
  revert h
  cases v <;> cases w <;> decide

theorem Verb.opening_apart_from_remark (v : Verb) :
    ¬ v.opening.toList <+: "// Action: ".toList ∧ ¬ "// Action: ".toList <+: v.opening.toList := by
  cases v <;> decide

namespace Action

/-- What the lines of the action begin with, whatever the step. -/
def opening : Action → String
  | .known verb => verb.opening
  | .custom _ => "// Action: "

/-- Actions with lines that may be equal. -/
inductive Alike : Action → Action → Prop where
  | verb (verb : Verb) : Alike (.known verb) (.known verb)
  | custom (name other : String) : Alike (.custom name) (.custom other)
  | scan : Alike (.known .scan) (.known .rescan)
  | rescan : Alike (.known .rescan) (.known .scan)

theorem alike_of_opening_prefix {a b : Action} (h : a.opening.toList <+: b.opening.toList) :
    a.Alike b := by
  cases a with
  | known v =>
    cases b with
    | known w =>
      obtain rfl | ⟨rfl, rfl⟩ | ⟨rfl, rfl⟩ := Verb.eq_or_scans_of_opening_prefix h
      · exact .verb v
      · exact .scan
      · exact .rescan
    | custom name => exact absurd h v.opening_apart_from_remark.1
  | custom name =>
    cases b with
    | known w => exact absurd h w.opening_apart_from_remark.2
    | custom other => exact .custom name other

theorem Alike.symm {a b : Action} (h : a.Alike b) : b.Alike a := by
  cases h with
  | verb v => exact .verb v
  | custom name other => exact .custom other name
  | scan => exact .rescan
  | rescan => exact .scan

end Action

namespace Step

variable {s t : Step}

theorem opening_prefix_line (s : Step) : s.action.opening.toList <+: s.line.toList := by
  unfold line
  cases s.action with
  | known verb => simp [Action.opening, String.append_assoc]
  | custom name => simp [Action.opening, remark, String.append_assoc]

theorem alike_of_line_eq (same : s.line = t.line) : s.action.Alike t.action := by
  have hs := s.opening_prefix_line
  have ht := t.opening_prefix_line
  rw [← same] at ht
  obtain h | h := List.prefix_or_prefix_of_prefix hs ht
  · exact Action.alike_of_opening_prefix h
  · exact (Action.alike_of_opening_prefix h).symm

theorem line_eq_iff_of_verb {verb : Verb} (hs : s.action = .known verb)
    (ht : t.action = .known verb) : s.line = t.line ↔ verb.argument s = verb.argument t := by
  rw [line_of_known hs, line_of_known ht, String.append_left_inj, String.append_right_inj]

theorem line_eq_iff_of_custom {name other : String} (hs : s.action = .custom name)
    (ht : t.action = .custom other) :
    s.line = t.line ↔ name ++ ", Locator: " ++ s.locator = other ++ ", Locator: " ++ t.locator := by
  rw [line_of_custom hs, line_of_custom ht, remark, remark]
  simp only [String.append_assoc, String.append_right_inj]

/-- The longer closing can be written into the argument. -/
theorem line_eq_iff_of_scans (hs : s.action = .known .scan) (ht : t.action = .known .rescan) :
    s.line = t.line ↔ s.locator = t.locator ++ ", recurse=true" := by
  have closing : Verb.rescan.closing = ", recurse=true" ++ Verb.scan.closing := rfl
  have opening : Verb.rescan.opening = Verb.scan.opening := rfl
  rw [line_of_known hs, line_of_known ht, opening, closing, ← String.append_assoc,
    String.append_left_inj, String.append_assoc, String.append_right_inj]
  rfl

/-- Two steps have the same line if their verbs and arguments are the same, if both are remarks with
the same words, or if the one scans again what the other names together with the closing for that.
-/
theorem line_eq_iff (s t : Step) :
    let argument := fun (verb : Verb) (step : Step) =>
      match verb with
      | .wait => step.data
      | .type => step.locator ++ ", " ++ step.data
      | .expect => step.locator ++ ", " ++ step.expected
      | _ => step.locator
    (s.line = t.line ↔
      (∃ verb, s.action = .known verb ∧ t.action = .known verb ∧ argument verb s = argument verb t) ∨
      (∃ name other, s.action = .custom name ∧ t.action = .custom other ∧
        name ++ ", Locator: " ++ s.locator = other ++ ", Locator: " ++ t.locator) ∨
      (s.action = .known .scan ∧ t.action = .known .rescan ∧
        s.locator = t.locator ++ ", recurse=true") ∨
      (s.action = .known .rescan ∧ t.action = .known .scan ∧
        t.locator = s.locator ++ ", recurse=true")) ∧
    (∀ v w, s.action = .known v → t.action = .known w → v ≠ w → s.line = t.line →
      v = .scan ∧ w = .rescan ∨ v = .rescan ∧ w = .scan) ∧
    ∀ v name, s.action = .known v → t.action = .custom name → s.line ≠ t.line := by
  intro argument
  have argument_eq : argument = Verb.argument := by
    funext verb step
    cases verb <;> rfl
  rw [argument_eq]
  refine ⟨⟨?_, ?_⟩, ?_, ?_⟩
  · intro same
    have alike := alike_of_line_eq same
    generalize hs : s.action = a at alike
    generalize ht : t.action = b at alike
    cases alike with
    | verb v => exact .inl ⟨v, rfl, rfl, (line_eq_iff_of_verb hs ht).1 same⟩
    | custom name other =>
      exact .inr (.inl ⟨name, other, rfl, rfl, (line_eq_iff_of_custom hs ht).1 same⟩)
    | scan => exact .inr (.inr (.inl ⟨rfl, rfl, (line_eq_iff_of_scans hs ht).1 same⟩))
    | rescan => exact .inr (.inr (.inr ⟨rfl, rfl, (line_eq_iff_of_scans ht hs).1 same.symm⟩))
  · rintro (⟨v, hs, ht, same⟩ | ⟨name, other, hs, ht, same⟩ | ⟨hs, ht, same⟩ | ⟨hs, ht, same⟩)
    · exact (line_eq_iff_of_verb hs ht).2 same
    · exact (line_eq_iff_of_custom hs ht).2 same
    · exact (line_eq_iff_of_scans hs ht).2 same
    · exact ((line_eq_iff_of_scans ht hs).2 same).symm
  · intro v w hs ht differ same
    have alike := alike_of_line_eq same
    rw [hs, ht] at alike
    cases alike with
    | verb v => exact absurd rfl differ
    | scan => exact .inl ⟨rfl, rfl⟩
    | rescan => exact .inr ⟨rfl, rfl⟩
  · intro v name hs ht same
    have alike := alike_of_line_eq same
    rw [hs, ht] at alike
    cases alike

/-- A scan of a target that ends like the line of a scan that is made again. -/
def lookalike : Step := ⟨"", "", .known .scan, .known .url, "/a, recurse=true", "", ""⟩

def again : Step := ⟨"", "", .known .rescan, .known .url, "/a", "", ""⟩

theorem lookalike_line :
    (∃ v w, lookalike.action = .known v ∧ again.action = .known w ∧ v ≠ w ∧
      lookalike.line = again.line ∧ (v = .scan ∧ w = .rescan ∨ v = .rescan ∧ w = .scan)) ∧
    lookalike.line ≠ { again with action := .custom "Re-scan" }.line := by
  obtain ⟨⟨_, equal⟩, scans, _⟩ := line_eq_iff lookalike again
  have same := equal (.inr (.inr (.inl ⟨rfl, rfl, rfl⟩)))
  have verbs : Verb.scan ≠ .rescan := by decide
  obtain ⟨_, _, differ⟩ := line_eq_iff lookalike { again with action := .custom "Re-scan" }
  exact ⟨⟨_, _, rfl, rfl, verbs, same, scans _ _ rfl rfl verbs same⟩, differ _ _ rfl rfl⟩

end Step

end TestScript
