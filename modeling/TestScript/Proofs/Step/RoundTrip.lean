import TestScript.Proofs.Form.Batch
import TestScript.Proofs.Json.Printing
import TestScript.Step.Document

namespace TestScript

theorem Action.canonical_iff {a : Action} :
    a.Canonical ↔ ∀ verb : Verb, a ≠ .custom verb.label := by
  cases a with
  | known verb => simp [Canonical, label]
  | custom name =>
    simp only [Canonical, label, ne_eq, custom.injEq]
    constructor
    · rintro h verb rfl
      simp at h
    · intro h
      have unknown : Verb.ofLabel? name = none := by
        rw [Option.eq_none_iff_forall_ne_some]
        intro verb hv
        exact h verb (Verb.ofLabel?_eq_some_iff.1 hv).symm
      simp [ofLabel, unknown]

theorem LocatorKind.canonical_iff {k : LocatorKind} :
    k.Canonical ↔ ∀ strategy : Strategy, k ≠ .custom strategy.label := by
  cases k with
  | known strategy => simp [Canonical, label]
  | custom name =>
    simp only [Canonical, label, ne_eq, custom.injEq]
    constructor
    · rintro h strategy rfl
      simp at h
    · intro h
      have unknown : Strategy.ofLabel? name = none := by
        rw [Option.eq_none_iff_forall_ne_some]
        intro strategy hs
        exact h strategy (Strategy.ofLabel?_eq_some_iff.1 hs).symm
      simp [ofLabel, unknown]

namespace Step

/-- The step with its labels read again. -/
def reread (s : Step) : Step :=
  { s with action := .ofLabel s.action.label, kind := .ofLabel s.kind.label }

theorem texts_reread (s : Step) : s.reread.texts = s.texts := by
  simp [texts, reread]

theorem reread_eq_iff {s : Step} : s.reread = s ↔ s.Canonical := by
  cases s
  simp [reread, Canonical, Action.Canonical, LocatorKind.Canonical]

theorem canonical_of_ofTexts? {texts : List String} {s : Step} (h : ofTexts? texts = some s) :
    s.Canonical := by
  unfold ofTexts? at h
  split at h
  · rw [← Option.some.inj h]
    exact ⟨Action.canonical_ofLabel _, LocatorKind.canonical_ofLabel _⟩
  · cases h

theorem canonical_of_ofJson? {v : Json} {s : Step} (h : ofJson? v = some s) : s.Canonical := by
  unfold ofJson? at h
  split at h
  · split at h
    · obtain ⟨texts, _, ht⟩ := Option.bind_eq_some_iff.1 h
      exact canonical_of_ofTexts? ht
    · cases h
  · obtain ⟨texts, _, ht⟩ := Option.bind_eq_some_iff.1 h
    exact canonical_of_ofTexts? ht
  · cases h

theorem canonical_of_parse? {text : String} {s : Step} (h : parse? text = some s) :
    s.Canonical := by
  obtain ⟨v, _, hv⟩ := Option.bind_eq_some_iff.1 h
  exact canonical_of_ofJson? hv

theorem ofJson?_toJson (s : Step) : ofJson? s.toJson = some s.reread := by
  simp [ofJson?, toJson, keys, texts, Field.key, Json.textAt?, ofTexts?, reread]

theorem printable_toJson (s : Step) : ∀ token ∈ s.toJson.tokens, token.Printable := by
  simp [toJson, keys, texts, Json.tokens, Json.memberTokens, Json.ofText, Json.Token.Printable]

theorem parse?_of_isTextOf {text : String} {v : Json} (h : Json.IsTextOf text v) :
    parse? text = ofJson? v := by
  simp [parse?, Json.parse?_of_isTextOf h]

theorem parse?_of_isTextOf_toJson {s : Step} {text : String} (h : Json.IsTextOf text s.toJson) :
    parse? text = some s.reread := by
  rw [parse?_of_isTextOf h, ofJson?_toJson]

/-- Both printed forms are read as the step with the same seven texts, and that is the step itself
unless a custom text in it hides a known label. -/
theorem parse?_printed (s : Step) :
    let back : Step := { s with action := .ofLabel s.action.label, kind := .ofLabel s.kind.label }
    parse? s.toJson.compactText = some back ∧ parse? s.toJson.wideText = some back ∧
    back.texts = s.texts ∧
    (back = s ↔ (∀ verb : Verb, s.action ≠ .custom verb.label) ∧
      ∀ strategy : Strategy, s.kind ≠ .custom strategy.label) ∧
    (((∃ form next, Form.submit form = .ok (s, next)) ∨
        (∃ specs, s ∈ (Batch.ofSpecs specs).steps) ∨ ∃ text, parse? text = some s) →
      parse? s.toJson.compactText = some s ∧ parse? s.toJson.wideText = some s) := by
  have compact := parse?_of_isTextOf_toJson (Json.isTextOf_compactText s.printable_toJson)
  have wide := parse?_of_isTextOf_toJson (Json.isTextOf_wideText s.printable_toJson)
  refine ⟨compact, wide, s.texts_reread, ?_, ?_⟩
  · exact reread_eq_iff.trans (and_congr Action.canonical_iff LocatorKind.canonical_iff)
  · intro made
    have canonical : s.Canonical := by
      rcases made with ⟨form, next, h⟩ | ⟨specs, h⟩ | ⟨text, h⟩
      · obtain ⟨_, same⟩ := Form.submit_eq_ok_iff.1 h
        have committed : form.accept.1 = s := congrArg Prod.fst same
        rw [← committed]
        exact canonical_toStep _ _
      · exact ((Batch.numbered_ofSpecs specs).written s h).canonical
      · exact canonical_of_parse? h
    rw [compact, wide, reread_eq_iff.2 canonical]
    exact ⟨rfl, rfl⟩

end Step

end TestScript
