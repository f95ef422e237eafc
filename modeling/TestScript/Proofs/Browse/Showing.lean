import Mathlib.Data.List.DropRight
import TestScript.Browse.History
import TestScript.Lesson.Builtin
import TestScript.Proofs.Browse.Separation
import TestScript.Proofs.Lesson.Issuing

namespace TestScript

namespace History

/-- The events after the last one that selects a lesson. -/
def sinceLesson (events : List Event) : List Event :=
  events.rtakeWhile (·.lesson?.isNone)

theorem lesson_concat (events : List Event) (e : Event) :
    lesson (events ++ [e]) = e.lesson?.getD (lesson events) := by
  unfold lesson
  cases h : e.lesson? <;> simp [List.filterMap_append, h]

theorem tab_concat (events : List Event) (e : Event) :
    tab (events ++ [e]) = e.tab?.getD (tab events) := by
  unfold tab
  cases h : e.tab? <;> simp [List.filterMap_append, h]

theorem sinceLesson_concat_of_none {e : Event} (h : e.lesson? = none) (events : List Event) :
    sinceLesson (events ++ [e]) = sinceLesson events ++ [e] :=
  List.rtakeWhile_concat_pos _ _ _ (by simp [h])

theorem sinceLesson_concat_selectLesson (events : List Event) (lesson : LessonIndex) :
    sinceLesson (events ++ [.selectLesson lesson]) = [] :=
  List.rtakeWhile_concat_neg _ _ _ (by simp [Event.lesson?])

/-- A lesson brings its own tab along, so only the tabs selected after it count. -/
theorem tab_sinceLesson (events : List Event) : tab (sinceLesson events) = tab events := by
  induction events using List.reverseRecOn with
  | nil => rfl
  | append_singleton events e ih =>
    cases e with
    | selectLesson lesson =>
      rw [sinceLesson_concat_selectLesson, tab_concat]
      rfl
    | selectTab | write | commit =>
      rw [sinceLesson_concat_of_none rfl, tab_concat, tab_concat, ih]

theorem selection_run_new (events : List Event) :
    (({} : Session).run events).selection = ⟨lesson events, tab events⟩ := by
  induction events using List.reverseRecOn with
  | nil => rfl
  | append_singleton events e ih =>
    rw [Session.run_append, Session.run_cons, Session.run_nil, Session.selection_apply, ih,
      lesson_concat, tab_concat]
    cases e <;> rfl

theorem position_lt_of_issued {c : Catalog} {events : List Event}
    (issued : ∀ index, .selectLesson index ∈ events → c.Issues index) :
    (lesson events).position < c.size := by
  unfold lesson
  cases last : (events.filterMap Event.lesson?).getLast? with
  | none => exact c.size_pos
  | some index =>
    obtain ⟨e, he, found⟩ := List.mem_filterMap.1 (List.mem_of_getLast? last)
    cases e with
    | selectLesson other =>
      obtain rfl : other = index := Option.some.inj found
      exact (issued other he).position_lt
    | selectTab | write | commit => cases found

end History

theorem Selection.screen?_eq_none_iff {s : Selection} {c : Catalog} {form : Form} :
    s.screen? c form = none ↔ (s.tab = .learn ∨ s.tab = .script) ∧ c.size ≤ s.lesson.position := by
  unfold screen?
  split
  · next learn => simp [learn, Catalog.lesson?_eq_none_iff]
  · next practice => simp [practice]
  · next script => simp [script, Catalog.lesson?_eq_none_iff]

namespace Session

theorem exists_screen_of_issued {c : Catalog} {events : List Event}
    (issued : ∀ index, .selectLesson index ∈ events → c.Issues index) :
    ∃ screen, (({} : Session).run events).screen? c = some screen := by
  have bound := History.position_lt_of_issued issued
  apply Option.ne_none_iff_exists'.1
  intro none
  have beyond := (Selection.screen?_eq_none_iff.1 none).2
  rw [History.selection_run_new] at beyond
  exact Nat.not_lt.2 beyond bound

/-- The events say which lesson is on the screen and under which tab. The screen is empty only if
the tab needs a lesson that the catalog lacks; otherwise a lesson is shown whole, as a table or as
its script. -/
theorem shown_run_new (events : List Event) (c : Catalog) :
    let s := ({} : Session).run events
    let tabs := (History.sinceLesson events).filterMap Event.tab?
    let position := s.selection.lesson.position
    s.selection.lesson = (events.filterMap Event.lesson?).getLast?.getD ⟨0⟩ ∧
    s.selection.tab = tabs.getLast?.getD .learn ∧
    (s.screen? c = none ↔
      (s.selection.tab = .learn ∨ s.selection.tab = .script) ∧ c.lessons.length ≤ position) ∧
    (∀ h : position < c.lessons.length,
      let lesson := c.lessons[position]
      (s.selection.tab = .learn →
        s.screen? c = some (.learn lesson ⟨lesson.steps.map fun step =>
          [step.id, step.description, step.action.label, step.kind.label, step.locator, step.data,
            step.expected]⟩)) ∧
      (s.selection.tab = .script →
        s.screen? c = some (.script lesson (Script.ofSteps lesson.steps)))) ∧
    ((∀ index, .selectLesson index ∈ events → c.Issues index) →
      ∃ screen, s.screen? c = some screen) := by
  intro s tabs position
  have selection : s.selection = ⟨History.lesson events, History.tab events⟩ :=
    History.selection_run_new events
  refine ⟨?_, ?_, Selection.screen?_eq_none_iff, ?_, exists_screen_of_issued⟩
  · rw [selection]
    rfl
  · rw [selection]
    exact (History.tab_sinceLesson events).symm
  · intro h lesson
    have found : c.lesson? s.selection.lesson = some lesson := List.getElem?_eq_getElem h
    constructor
    · intro learn
      rw [screen?, Selection.screen?, learn, found]
      rfl
    · intro script
      rw [screen?, Selection.screen?, script, found]
      rfl

/-- Lessons are opened that the builtin catalog gave out in two ways, and then a script. -/
def visits : List Event :=
  [.selectTab .practice, .selectLesson ⟨1⟩, .selectTab .script, .selectLesson ⟨2⟩,
   .write .action "Click", .selectTab .practice, .selectTab .script]

theorem shown_run_visits :
    (∀ index, .selectLesson index ∈ visits → Catalog.builtin.Issues index) ∧
    (∃ screen, (({} : Session).run visits).screen? .builtin = some screen) ∧
    (({} : Session).run visits).screen? .builtin =
      some (.script .securityScan (Script.ofSteps Lesson.securityScan.steps)) ∧
    (({} : Session).run visits).screen? ⟨[.loginFlow, .apiTesting], by decide⟩ = none := by
  have issued : ∀ index, .selectLesson index ∈ visits → Catalog.builtin.Issues index := by
    intro index h
    obtain rfl | rfl : index = ⟨1⟩ ∨ index = ⟨2⟩ := by simpa [visits] using h
    · exact .byPosition 1 rfl
    · exact .byListing .securityScan (List.mem_of_getElem? (i := 2) rfl)
  obtain ⟨_, _, _, found, never⟩ := shown_run_new visits .builtin
  obtain ⟨_, _, empty, _, _⟩ := shown_run_new visits ⟨[.loginFlow, .apiTesting], by decide⟩
  exact ⟨issued, never issued, (found (by decide)).2 rfl, empty.2 (by decide)⟩

end Session

end TestScript
