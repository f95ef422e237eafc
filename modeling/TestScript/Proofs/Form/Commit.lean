import TestScript.Browse.History

namespace TestScript

/-- An entry of a longer list is the new one at its end or was there before. -/
theorem concat_eq_append_cons_iff {α : Type} {l before after : List α} {last entry : α} :
    l ++ [last] = before ++ entry :: after ↔
      (l = before ∧ last = entry ∧ after = []) ∨
      ∃ between, after = between ++ [last] ∧ l = before ++ entry :: between := by
  constructor
  · intro eq
    rcases List.eq_nil_or_concat after with rfl | ⟨between, other, rfl⟩
    · obtain ⟨same, new⟩ := List.append_inj' eq rfl
      exact .inl ⟨same, (List.cons.inj new).1, rfl⟩
    · have eq' : l ++ [last] = (before ++ entry :: between) ++ [other] := by simpa using eq
      obtain ⟨same, new⟩ := List.append_inj' eq' rfl
      obtain rfl : last = other := (List.cons.inj new).1
      exact .inr ⟨between, List.concat_eq_append, same⟩
  · rintro (⟨rfl, rfl, rfl⟩ | ⟨between, rfl, rfl⟩)
    · rfl
    · simp

namespace Form

/-- The form after an event. -/
def apply (form : Form) : Event → Form
  | .selectLesson _ | .selectTab _ => form
  | .write field text => form.edit field text
  | .commit => form.commit.2

theorem commit_accepts_iff {form : Form} : form.commit.1 = true ↔ form.draft.missing = [] := by
  by_cases h : form.draft.missing = []
  · simp [commit_of_missing_eq_nil h, h]
  · simp [commit_of_missing_ne_nil h, h]

theorem commit_refuses_iff {form : Form} : form.commit.1 = false ↔ form.draft.missing ≠ [] := by
  rw [← Bool.not_eq_true, commit_accepts_iff]

theorem hint?_eq_some_iff {form : Form} {text : String} :
    form.hint? = some text ↔
      form.draft.missing ≠ [] ∧ text = "Fill in: " ++ Field.labels form.draft.missing := by
  unfold hint?
  split
  · next complete => simp [complete]
  · next lacks =>
    constructor
    · intro same
      exact ⟨lacks, (Option.some.inj same).symm⟩
    · rintro ⟨_, rfl⟩
      rfl

theorem hint?_eq_none_iff {form : Form} : form.hint? = none ↔ form.draft.missing = [] := by
  simp [Option.eq_none_iff_forall_ne_some, hint?_eq_some_iff]

/-- Everything that an event can do to a form. -/
theorem apply_cases (form : Form) (e : Event) :
    (∃ field text, e = .write field text ∧ form.apply e = form.edit field text) ∨
    (e = .commit ∧ form.draft.missing = [] ∧ form.apply e = form.accept.2) ∨
    ((∀ field, e.textFor? field = none) ∧ (e = .commit → form.draft.missing ≠ []) ∧
      form.apply e = form) := by
  cases e with
  | write field text => exact .inl ⟨field, text, rfl, rfl⟩
  | commit =>
    by_cases h : form.draft.missing = []
    · exact .inr (.inl ⟨rfl, h, by simp [apply, commit_of_missing_eq_nil h]⟩)
    · exact .inr (.inr ⟨fun _ => rfl, fun _ => h, by simp [apply, commit_of_missing_ne_nil h]⟩)
  | selectLesson | selectTab => exact .inr (.inr ⟨fun _ => rfl, nofun, rfl⟩)

theorem steps_prefix_apply (form : Form) (e : Event) : form.steps <+: (form.apply e).steps := by
  rcases form.apply_cases e with ⟨_, _, _, h⟩ | ⟨_, _, h⟩ | ⟨_, _, h⟩
  · exact ⟨[], by simp [h, edit]⟩
  · rw [h]
    exact List.prefix_append _ _
  · exact ⟨[], by simp [h]⟩

end Form

namespace Session

theorem form_apply (s : Session) (e : Event) : (s.apply e).form = s.form.apply e := by
  cases e <;> rfl

theorem form_run (s : Session) (events : List Event) :
    (s.run events).form = events.foldl Form.apply s.form := by
  induction events generalizing s with
  | nil => rfl
  | cons e events ih => rw [run_cons, ih, form_apply, List.foldl_cons]

/-- What holds of the form, and is kept by every event, holds after any run. -/
theorem form_run_induction {P : Form → Prop} {s : Session} (start : P s.form)
    (step : ∀ form e, P form → P (form.apply e)) (events : List Event) :
    P (s.run events).form := by
  induction events generalizing s with
  | nil => exact start
  | cons e events ih =>
    apply ih
    rw [form_apply]
    exact step _ _ start

theorem steps_prefix_run (s : Session) (events : List Event) :
    s.form.steps <+: (s.run events).form.steps := by
  apply form_run_induction (P := fun form => s.form.steps <+: form.steps) List.prefix_rfl
  intro form e h
  exact h.trans (form.steps_prefix_apply e)

/-- How many commits of a run are accepted. -/
def accepted (s : Session) : List Event → Nat
  | [] => 0
  | e :: events =>
    (if e = .commit ∧ s.form.commit.1 = true then 1 else 0) + (s.apply e).accepted events

theorem length_steps_run (s : Session) (events : List Event) :
    (s.run events).form.steps.length = s.form.steps.length + s.accepted events := by
  induction events generalizing s with
  | nil => rfl
  | cons e events ih =>
    rw [run_cons, ih, form_apply, accepted]
    rcases s.form.apply_cases e with ⟨_, _, rfl, h⟩ | ⟨rfl, ready, h⟩ | ⟨_, refused, h⟩
    · simp [h, Form.edit]
    · simp [h, Form.commit_accepts_iff, ready, Form.accept, Nat.add_assoc]
    · have same : ¬ (e = .commit ∧ s.form.commit.1 = true) := by
        rintro ⟨he, accepts⟩
        exact refused he (Form.commit_accepts_iff.1 accepts)
      simp [h, same]

theorem accepted_eq_zero_iff {s : Session} {events : List Event} :
    s.accepted events = 0 ↔
      ∀ earlier later, events = earlier ++ .commit :: later →
        (s.run earlier).form.commit.1 = false := by
  induction events generalizing s with
  | nil => simp [accepted]
  | cons e events ih =>
    rw [accepted, Nat.add_eq_zero_iff, ih]
    constructor
    · rintro ⟨now, rest⟩ earlier later eq
      cases earlier with
      | nil =>
        obtain ⟨rfl, rfl⟩ := List.cons.inj eq
        simpa using now
      | cons first earlier =>
        obtain ⟨rfl, rfl⟩ := List.cons.inj eq
        exact rest earlier later rfl
    · intro refused
      have now : e = .commit → s.form.commit.1 = false := by
        rintro rfl
        exact refused [] events rfl
      refine ⟨?_, ?_⟩
      · rw [if_neg]
        rintro ⟨he, accepts⟩
        exact Bool.noConfusion (accepts.symm.trans (now he))
      · rintro earlier later rfl
        exact refused (e :: earlier) later rfl

theorem accepted_le_count (s : Session) (events : List Event) :
    s.accepted events ≤ events.count .commit := by
  induction events generalizing s with
  | nil => exact Nat.le_refl _
  | cons e events ih =>
    have rest := ih (s.apply e)
    rw [accepted, List.count_cons]
    by_cases he : e = .commit
    · subst he
      simp only [true_and, beq_self_eq_true, ↓reduceIte]
      split <;> omega
    · simpa [he] using rest

end Session

end TestScript
