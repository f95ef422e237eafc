import TestScript.Proofs.Form.Commit

namespace TestScript

namespace Event

/-- The event is about what is shown. -/
def selects : Event → Bool
  | .selectLesson _ | .selectTab _ => true
  | .write .. | .commit => false

/-- The event is about the form. -/
def writes : Event → Bool
  | .selectLesson _ | .selectTab _ => false
  | .write .. | .commit => true

/-- Two lists with the same events of one kind do the same, if the events of the other kind do
nothing. -/
theorem foldl_eq_of_filter_eq {State : Type} {step : State → Event → State} {counts : Event → Bool}
    (idle : ∀ s e, counts e = false → step s e = s) {first second : List Event}
    (h : first.filter counts = second.filter counts) (s : State) :
    first.foldl step s = second.foldl step s := by
  have counted (events : List Event) (s : State) :
      (events.filter counts).foldl step s = events.foldl step s := by
    induction events generalizing s with
    | nil => rfl
    | cons e events ih =>
      by_cases he : counts e = true
      · rw [List.filter_cons_of_pos he, List.foldl_cons, List.foldl_cons, ih]
      · have same : step s e = s := idle s e (Bool.eq_false_iff.2 he)
        rw [List.filter_cons_of_neg he, List.foldl_cons, same, ih]
  rw [← counted first, h, counted second]

end Event

namespace Selection

/-- The selection after an event. -/
def apply (s : Selection) : Event → Selection
  | .selectLesson lesson => s.openLesson lesson
  | .selectTab tab => s.openTab tab
  | .write .. | .commit => s

theorem apply_of_not_selects (s : Selection) (e : Event) (h : e.selects = false) :
    s.apply e = s := by
  cases e with
  | selectLesson | selectTab => cases h
  | write | commit => rfl

theorem screen?_of_practice {s : Selection} (h : s.tab = .practice) (c : Catalog) (form : Form) :
    s.screen? c form = some (.ofForm form) := by
  simp only [screen?, h]

/-- Only the practice tab looks at the form. -/
theorem screen?_of_ne_practice {s : Selection} (h : s.tab ≠ .practice) (c : Catalog)
    (form other : Form) : s.screen? c form = s.screen? c other := by
  unfold screen?
  split
  · rfl
  · next practice => exact absurd practice h
  · rfl

end Selection

theorem Form.apply_of_not_writes (form : Form) (e : Event) (h : e.writes = false) :
    form.apply e = form := by
  cases e with
  | selectLesson | selectTab => rfl
  | write | commit => cases h

namespace Session

theorem selection_apply (s : Session) (e : Event) :
    (s.apply e).selection = s.selection.apply e := by
  cases e <;> rfl

theorem selection_run (s : Session) (events : List Event) :
    (s.run events).selection = events.foldl Selection.apply s.selection := by
  induction events generalizing s with
  | nil => rfl
  | cons e events ih => rw [run_cons, ih, selection_apply, List.foldl_cons]

theorem selection_run_congr (s : Session) {first second : List Event}
    (h : first.filter Event.selects = second.filter Event.selects) :
    (s.run first).selection = (s.run second).selection := by
  rw [selection_run, selection_run]
  exact Event.foldl_eq_of_filter_eq Selection.apply_of_not_selects h s.selection

theorem form_run_congr (s : Session) {first second : List Event}
    (h : first.filter Event.writes = second.filter Event.writes) :
    (s.run first).form = (s.run second).form := by
  rw [form_run, form_run]
  exact Event.foldl_eq_of_filter_eq Form.apply_of_not_writes h s.form

/-- How the two kinds of events are mixed does not matter. What is written never shows in a lesson
or its script, and neither the selected lesson nor the catalog shows in the form. -/
theorem run_separate (s : Session) (first second : List Event) :
    (first.filter Event.selects = second.filter Event.selects →
      first.filter Event.writes = second.filter Event.writes → s.run first = s.run second) ∧
    (first.filter Event.selects = second.filter Event.selects →
      (s.run first).selection.tab = .learn ∨ (s.run first).selection.tab = .script →
        ∀ c : Catalog, (s.run first).screen? c = (s.run second).screen? c) ∧
    (first.filter Event.writes = second.filter Event.writes →
      (s.run first).selection.tab = .practice → (s.run second).selection.tab = .practice →
        ∃ draft kinds table, ∀ c d : Catalog,
          (s.run first).screen? c = some (.practice draft kinds table) ∧
          (s.run second).screen? d = some (.practice draft kinds table)) := by
  refine ⟨?_, ?_, ?_⟩
  · intro selects writes
    have selection := s.selection_run_congr selects
    have form := s.form_run_congr writes
    calc
      s.run first = ⟨(s.run first).selection, (s.run first).form⟩ := rfl
      _ = ⟨(s.run second).selection, (s.run second).form⟩ := by rw [selection, form]
      _ = s.run second := rfl
  · intro selects tab c
    have selection := s.selection_run_congr selects
    have shown : (s.run first).selection.tab ≠ .practice := by
      rcases tab with learn | script
      · simp [learn]
      · simp [script]
    rw [screen?, screen?, ← selection]
    exact Selection.screen?_of_ne_practice shown c _ _
  · intro writes here there
    have form := s.form_run_congr writes
    refine ⟨_, _, _, fun c d => ⟨Selection.screen?_of_practice here c _, ?_⟩⟩
    rw [form]
    exact Selection.screen?_of_practice there d _

/-- A button is written down. -/
def typing : List Event :=
  [.write .action "Click", .write .kind "CSS", .write .locator ".btn", .commit]

/-- A lesson is opened that the catalog need not have, and then a tab. -/
def visit (tab : Tab) : List Event := [.selectLesson ⟨7⟩, .selectTab tab]

theorem run_separate_typing :
    ({} : Session).run (typing ++ visit .practice) = ({} : Session).run (visit .practice ++ typing) ∧
    (∀ c : Catalog, (({} : Session).run (visit .script)).screen? c =
      (({} : Session).run (typing ++ visit .script)).screen? c) ∧
    ∃ draft kinds table, ∀ c d : Catalog,
      (({} : Session).run (typing ++ visit .practice)).screen? c =
        some (.practice draft kinds table) ∧
      (({} : Session).run (typing ++ [.selectTab .practice])).screen? d =
        some (.practice draft kinds table) := by
  refine ⟨?_, ?_, ?_⟩
  · exact (run_separate {} _ _).1 (by decide) (by decide)
  · exact (run_separate {} _ _).2.1 (by decide) (by decide)
  · exact (run_separate {} _ _).2.2 (by decide) (by decide) (by decide)

end Session

end TestScript
