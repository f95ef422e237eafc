import TestScript.Proofs.Form.Offering

namespace TestScript

namespace Action

theorem label_mem_offered_iff {a : Action} {text : String} :
    (∃ k ∈ a.offered, k.label = text) ↔ LocatorKind.ofLabel text ∈ a.offered := by
  constructor
  · rintro ⟨k, hk, rfl⟩
    rwa [LocatorKind.ofLabel_label_of_mem_all (mem_all_of_mem_offered hk)]
  · intro h
    exact ⟨_, h, LocatorKind.label_ofLabel text⟩

theorem mem_offered_known_iff {verb : Verb} {k : LocatorKind} :
    k ∈ (known verb).offered ↔ (known verb).Accepts k := by
  rw [offered_known, accepts_known_iff]

/-- The two differ only where neither the action nor the kind is known. -/
theorem accepts_and_not_mem_offered_iff {a : Action} {k : LocatorKind} :
    a.Accepts k ∧ k ∉ a.offered ↔ (∃ name, a = .custom name) ∧ k ∉ LocatorKind.all := by
  cases a with
  | known verb => simp [accepts_known_iff]
  | custom name => simp

end Action

namespace Form

theorem offers_iff_ofLabel_mem {form : Form} {action : String} :
    form.Offers action ↔ form.draft.kind = "" ∨
      LocatorKind.ofLabel form.draft.kind ∈ (Action.ofLabel action).offered := by
  rw [offers_iff, Action.label_mem_offered_iff]

/-- A kind is on offer just if it is accepted, where the action is known; where it is not, just if
the kind is known. Nothing is on offer that is not accepted, and the only kinds that are accepted
without being on offer are the unknown ones of the unknown actions. -/
theorem offers_agrees (form : Form) (action : String) :
    let a := Action.ofLabel action
    let k := LocatorKind.ofLabel form.draft.kind
    (form.Offers action ↔ form.draft.kind = "" ∨ k ∈ a.offered) ∧
    (form.draft.kind ≠ "" →
      (∀ verb, a = .known verb → (form.Offers action ↔ a.Accepts k)) ∧
      (∀ name, a = .custom name →
        (form.Offers action ↔ k ∈ LocatorKind.all) ∧ ∀ other, a.Accepts other) ∧
      (form.Offers action → a.Accepts k) ∧
      (a.Accepts k ∧ ¬ form.Offers action ↔
        (∃ name, a = .custom name) ∧ k ∉ LocatorKind.all)) ∧
    Action.ofLabel "" = .custom "" := by
  intro a k
  refine ⟨offers_iff_ofLabel_mem, ?_, by decide⟩
  intro written
  have offers : form.Offers action ↔ k ∈ a.offered :=
    offers_iff_ofLabel_mem.trans (or_iff_right written)
  simp only [offers]
  refine ⟨?_, ?_, Action.accepts_of_mem_offered, Action.accepts_and_not_mem_offered_iff⟩
  · intro verb known
    rw [known]
    exact Action.mem_offered_known_iff
  · intro name custom
    rw [custom]
    exact ⟨.rfl, Action.accepts_custom name⟩

example : ¬ ({ draft := { kind := "Canvas" } } : Form).Offers "Drag" ∧
    (Action.ofLabel "Drag").Accepts (.ofLabel "Canvas") := by decide

end Form

end TestScript
