import TestScript.Browse.Session
import TestScript.Proofs.Form.Commit

namespace TestScript

namespace Step

theorem ofDigitChars_customNumber (n : Nat) :
    Nat.ofDigitChars 10 (Text.padStart 3 '0' n.repr).toList 0 = n := by
  rw [Text.toList_padStart, Nat.ofDigitChars_append, Nat.ofDigitChars_replicate_zero,
    Nat.mul_zero, Nat.toList_repr, Nat.ofDigitChars_ten_toDigits]

/-- Zeros in front do not make two numbers look alike, whatever their lengths. -/
theorem customId_inj {m n : Nat} : customId m = customId n ↔ m = n := by
  constructor
  · intro h
    have chars := congrArg String.toList h
    simp only [customId, String.toList_append] at chars
    have numbers := congrArg (Nat.ofDigitChars 10 · 0) (List.append_cancel_left chars)
    simpa only [ofDigitChars_customNumber] using numbers
  · rintro rfl
    rfl

theorem customId_eq (n : Nat) :
    customId n = "TC-CUSTOM-" ++ String.ofList (List.replicate (3 - n.repr.length) '0') ++ n.repr := by
  apply String.toList_injective
  simp [customId, customIdStart]

example : customId 7 = "TC-CUSTOM-007" ∧ customId 1000 = "TC-CUSTOM-1000" := by decide

/-- A step as forms commit it: what it needs is there, and its labels are read back. -/
structure Written (s : Step) : Prop where
  description : s.description ≠ ""
  action : s.action.label ≠ ""
  kind : s.kind.label ≠ ""
  locator : s.locator ≠ ""
  canonical : s.Canonical

theorem canonical_toStep (d : Draft) (id : String) : (d.toStep id).Canonical :=
  ⟨Action.canonical_ofLabel _, LocatorKind.canonical_ofLabel _⟩

theorem written_toStep {d : Draft} (h : d.missing = []) (id : String) : (d.toStep id).Written := by
  obtain ⟨action, kind, locator⟩ := Draft.missing_eq_nil_iff.1 h
  refine ⟨?_, by simpa [Draft.toStep] using action, by simpa [Draft.toStep] using kind, locator,
    canonical_toStep d id⟩
  by_cases description : d.description = ""
  · simpa [Draft.toStep, description] using action
  · simp [Draft.toStep, description]

/-- Such a step is what its own texts make, its description being there already. -/
theorem Written.toStep_draft {s : Step} (h : s.Written) (id : String) :
    s.draft.toStep id = { s with id } := by
  obtain ⟨action, kind⟩ := h.canonical
  simp only [Draft.toStep, draft, h.description, ↓reduceIte]
  rw [action, kind]

theorem Written.missing_draft {s : Step} (h : s.Written) : s.draft.missing = [] :=
  Draft.missing_eq_nil_iff.2 ⟨h.action, h.kind, h.locator⟩

end Step

namespace Form

/-- The steps carry the numbers that were given out, each one once and in order. -/
structure Numbered (form : Form) : Prop where
  issued : form.issued = form.steps.length
  ids : form.steps.map Step.id = (List.range form.steps.length).map fun n => Step.customId (n + 1)
  written : ∀ step ∈ form.steps, step.Written

theorem numbered_new : ({} : Form).Numbered :=
  ⟨rfl, rfl, fun _ hs => (List.not_mem_nil hs).elim⟩

theorem Numbered.accept {form : Form} (h : form.Numbered) (ready : form.draft.missing = []) :
    form.accept.2.Numbered := by
  refine ⟨by simp [Form.accept, h.issued], ?_, ?_⟩
  · simp [Form.accept, List.range_succ, h.ids, h.issued, Draft.toStep]
  · have written := Step.written_toStep ready (Step.customId (form.issued + 1))
    exact List.forall_mem_append.2 ⟨h.written, List.forall_mem_singleton.2 written⟩

theorem Numbered.apply {form : Form} (h : form.Numbered) (e : Event) : (form.apply e).Numbered := by
  rcases form.apply_cases e with ⟨_, _, _, eq⟩ | ⟨_, ready, eq⟩ | ⟨_, _, eq⟩
  · rw [eq]
    exact ⟨h.issued, h.ids, h.written⟩
  · rw [eq]
    exact h.accept ready
  · rw [eq]
    exact h

theorem numbered_run_new (events : List Event) : (({} : Session).run events).form.Numbered :=
  Session.form_run_induction (P := Numbered) (s := {}) numbered_new (fun _ e h => h.apply e) events

theorem Numbered.id_getElem {form : Form} (h : form.Numbered) {n : Nat}
    (hn : n < form.steps.length) : form.steps[n].id = Step.customId (n + 1) := by
  have ids := congrArg (·[n]?) h.ids
  simpa [hn] using ids

theorem Numbered.nodup_ids {form : Form} (h : form.Numbered) : (form.steps.map Step.id).Nodup := by
  rw [h.ids]
  apply List.pairwise_map.2
  refine List.nodup_range.imp fun differ same => differ ?_
  simpa using Step.customId_inj.1 same

end Form

/-- The sequence of a session grows at its end only. Its steps are numbered by their places, with at
least three digits, and nothing that a step needs is missing from one. -/
theorem Session.sequence_run_new (events later : List Event) :
    let form := (({} : Session).run events).form
    form.issued = form.steps.length ∧
    form.issued ≤ events.count .commit ∧
    (form.steps.map Step.id = (List.range form.steps.length).map fun n =>
      "TC-CUSTOM-" ++ String.ofList (List.replicate (3 - (n + 1).repr.length) '0') ++
        (n + 1).repr) ∧
    (form.steps.map Step.id).Nodup ∧
    (∀ step ∈ form.steps,
      step.description ≠ "" ∧ step.action.label ≠ "" ∧ step.kind.label ≠ "" ∧ step.locator ≠ "" ∧
      step.action = .ofLabel step.action.label ∧ step.kind = .ofLabel step.kind.label) ∧
    form.steps <+: ((({} : Session).run events).run later).form.steps := by
  have h := Form.numbered_run_new events
  have length := length_steps_run {} events
  have accepted := accepted_le_count {} events
  refine ⟨h.issued, ?_, ?_, h.nodup_ids, ?_, steps_prefix_run _ later⟩
  · rw [h.issued, length]
    simpa using accepted
  · simpa only [Step.customId_eq] using h.ids
  · intro step hs
    have written := h.written step hs
    exact ⟨written.description, written.action, written.kind, written.locator,
      written.canonical.1.symm, written.canonical.2.symm⟩

end TestScript
