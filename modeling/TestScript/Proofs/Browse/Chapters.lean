import TestScript.Proofs.Form.Commit

namespace TestScript.History

theorem lastText_concat (events : List Event) (e : Event) (field : Field) :
    lastText (events ++ [e]) field = (e.textFor? field).getD (lastText events field) := by
  unfold lastText
  cases h : e.textFor? field <;> simp [List.filterMap_append, h]

theorem draft_concat_write (events : List Event) (field : Field) (text : String) :
    draft (events ++ [.write field text]) = (draft events).set field text := by
  apply Draft.ext_get
  intro other
  simp only [draft, Draft.get_ofTexts, Draft.get_set, lastText_concat, Event.textFor?]
  by_cases h : other = field
  · simp [h]
  · simp [h, Ne.symm h]

theorem draft_concat_of_none {e : Event} (h : ∀ field, e.textFor? field = none)
    (events : List Event) : draft (events ++ [e]) = draft events := by
  apply Draft.ext_get
  intro field
  simp [draft, lastText_concat, h]

theorem missing_draft_eq_nil_iff {events : List Event} :
    (draft events).missing = [] ↔ Complete events := by
  simp [Draft.missing, Complete, draft]

/-- No commit among the events would be accepted, if nothing came before them. -/
def Uncut (events : List Event) : Prop :=
  ∀ first rest, events = first ++ .commit :: rest → ¬ Complete first

theorem uncut_nil : Uncut [] := by
  intro first rest h
  simp at h

theorem Uncut.concat {events : List Event} (h : Uncut events) {e : Event}
    (he : ¬ (e = .commit ∧ Complete events)) : Uncut (events ++ [e]) := by
  intro first rest eq complete
  rcases concat_eq_append_cons_iff.1 eq with ⟨rfl, commit, _⟩ | ⟨rest, _, before⟩
  · exact he ⟨commit, complete⟩
  · exact h first rest before complete

namespace Chapters

/-- The chapters with the commits between them are the events, and the commits that are accepted are
exactly those between chapters. -/
structure Divides (c : Chapters) (events : List Event) : Prop where
  joined : c.finished.flatMap (· ++ [.commit]) ++ c.current = events
  complete : ∀ chapter ∈ c.finished, Complete chapter
  uncut : ∀ chapter ∈ c.finished ++ [c.current], Uncut chapter

theorem add_of_accepted {c : Chapters} (h : Complete c.current) :
    c.add .commit = { finished := c.finished ++ [c.current] } := by
  simp [add, h]

theorem add_of_not_accepted {c : Chapters} {e : Event} (h : ¬ (e = .commit ∧ Complete c.current)) :
    c.add e = { c with current := c.current ++ [e] } :=
  if_neg h

theorem Divides.add {c : Chapters} {events : List Event} (h : c.Divides events) (e : Event) :
    (c.add e).Divides (events ++ [e]) := by
  obtain ⟨uncut, last⟩ := List.forall_mem_append.1 h.uncut
  by_cases he : e = .commit ∧ Complete c.current
  · obtain ⟨rfl, complete⟩ := he
    rw [add_of_accepted complete]
    refine ⟨by simp [← h.joined], ?_, ?_⟩
    · exact List.forall_mem_append.2 ⟨h.complete, List.forall_mem_singleton.2 complete⟩
    · exact List.forall_mem_append.2 ⟨h.uncut, List.forall_mem_singleton.2 uncut_nil⟩
  · rw [add_of_not_accepted he]
    have longer : Uncut (c.current ++ [e]) := (List.forall_mem_singleton.1 last).concat he
    refine ⟨by simp [← h.joined], h.complete, ?_⟩
    exact List.forall_mem_append.2 ⟨uncut, List.forall_mem_singleton.2 longer⟩

theorem Divides.foldl_add {c : Chapters} {seen : List Event} (h : c.Divides seen)
    (events : List Event) : (events.foldl Chapters.add c).Divides (seen ++ events) := by
  induction events generalizing c seen with
  | nil => simpa using h
  | cons e events ih => simpa using ih (h.add e)

theorem foldl_add_uncut (finished : List (List Event)) {seen events : List Event}
    (h : Uncut (seen ++ events)) :
    events.foldl Chapters.add ⟨finished, seen⟩ = ⟨finished, seen ++ events⟩ := by
  induction events generalizing seen with
  | nil => simp
  | cons e events ih =>
    have refused : ¬ (e = .commit ∧ Complete seen) := by
      rintro ⟨rfl, complete⟩
      exact h seen events rfl complete
    rw [List.foldl_cons, add_of_not_accepted refused, ih (by simpa using h)]
    simp

theorem foldl_add_finished (done : List (List Event)) {finished : List (List Event)}
    (complete : ∀ chapter ∈ finished, Complete chapter)
    (uncut : ∀ chapter ∈ finished, Uncut chapter) :
    (finished.flatMap (· ++ [.commit])).foldl Chapters.add ⟨done, []⟩ = ⟨done ++ finished, []⟩ := by
  induction finished generalizing done with
  | nil => simp
  | cons chapter finished ih =>
    obtain ⟨hc, complete⟩ := List.forall_mem_cons.1 complete
    obtain ⟨hu, uncut⟩ := List.forall_mem_cons.1 uncut
    have cut : (chapter ++ [Event.commit]).foldl Chapters.add ⟨done, []⟩ =
        ⟨done ++ [chapter], []⟩ := by
      rw [List.foldl_append, foldl_add_uncut done (by simpa using hu)]
      exact add_of_accepted hc
    rw [List.flatMap_cons, List.foldl_append, cut, ih _ complete uncut]
    simp

theorem divides_nil : ({} : Chapters).Divides [] :=
  ⟨rfl, nofun, List.forall_mem_singleton.2 uncut_nil⟩

theorem divides_iff {c : Chapters} {events : List Event} :
    c.Divides events ↔ c = chapters events := by
  constructor
  · intro h
    obtain ⟨uncut, last⟩ := List.forall_mem_append.1 h.uncut
    have current : Uncut ([] ++ c.current) := List.forall_mem_singleton.1 last
    calc
      c = ⟨[] ++ c.finished, [] ++ c.current⟩ := rfl
      _ = c.current.foldl Chapters.add ⟨[] ++ c.finished, []⟩ := (foldl_add_uncut _ current).symm
      _ = chapters (c.finished.flatMap (· ++ [.commit]) ++ c.current) := by
        rw [chapters, List.foldl_append, foldl_add_finished [] h.complete uncut]
      _ = chapters events := by rw [h.joined]
  · rintro rfl
    exact divides_nil.foldl_add events

/-- The form that the chapters come to. -/
structure Tells (c : Chapters) (form : Form) : Prop where
  draft : form.draft = History.draft c.current
  steps : form.steps =
    c.finished.mapIdx fun n chapter => (History.draft chapter).toStep (Step.customId (n + 1))
  issued : form.issued = c.finished.length

theorem Tells.missing_eq_nil_iff {c : Chapters} {form : Form} (h : c.Tells form) :
    form.draft.missing = [] ↔ Complete c.current := by
  rw [h.draft, missing_draft_eq_nil_iff]

/-- One event adds to the chapters what it does to the form. -/
theorem Tells.apply {c : Chapters} {form : Form} (h : c.Tells form) (e : Event) :
    (c.add e).Tells (form.apply e) := by
  rcases form.apply_cases e with ⟨field, text, rfl, eq⟩ | ⟨rfl, ready, eq⟩ | ⟨silent, refused, eq⟩
  · rw [eq, add_of_not_accepted (by simp)]
    exact ⟨by simp [Form.edit, h.draft, draft_concat_write], h.steps, h.issued⟩
  · rw [eq, add_of_accepted (h.missing_eq_nil_iff.1 ready)]
    exact ⟨rfl, by simp [Form.accept, h.steps, h.issued, h.draft], by simp [Form.accept, h.issued]⟩
  · -- a refused commit stays in its chapter, where it writes nothing
    have not_accepted : ¬ (e = .commit ∧ Complete c.current) := by
      rintro ⟨he, complete⟩
      exact refused he (h.missing_eq_nil_iff.2 complete)
    rw [eq, add_of_not_accepted not_accepted]
    exact ⟨by rw [h.draft, draft_concat_of_none silent], h.steps, h.issued⟩

theorem tells_run_new (events : List Event) :
    (chapters events).Tells (({} : Session).run events).form := by
  have run : ∀ (c : Chapters) (form : Form), c.Tells form →
      (events.foldl Chapters.add c).Tells (events.foldl Form.apply form) := by
    induction events with
    | nil => exact fun _ _ h => h
    | cons e events ih => exact fun _ _ h => ih _ _ (h.apply e)
  rw [Session.form_run]
  exact run {} {} ⟨rfl, rfl, rfl⟩

end Chapters

/-- Between two accepted commits the text last written into a field is its text in the draft; a
commit is accepted if the three required ones are not empty, and then makes one step of them. -/
theorem form_run_new (events : List Event) :
    (∀ c : Chapters, c.Divides events ↔ c = chapters events) ∧
    let form := (({} : Session).run events).form
    let current := (chapters events).current
    (∀ field, form.draft.get field = lastText current field) ∧
    (form.commit.1 = true ↔
      lastText current .action ≠ "" ∧ lastText current .kind ≠ "" ∧
        lastText current .locator ≠ "") ∧
    (chapters events).finished.length = ({} : Session).accepted events ∧
    form.steps = (chapters events).finished.mapIdx fun n chapter =>
      let text := lastText chapter
      { id := Step.customId (n + 1)
        description := if text .description = "" then text .action else text .description
        action := .ofLabel (text .action)
        kind := .ofLabel (text .kind)
        locator := text .locator
        data := text .data
        expected := text .expected } := by
  have h := Chapters.tells_run_new events
  refine ⟨fun c => Chapters.divides_iff, ?_, ?_, ?_, h.steps⟩
  · intro field
    rw [h.draft, draft, Draft.get_ofTexts]
  · rw [Form.commit_accepts_iff, h.missing_eq_nil_iff]
    simp [Complete, Field.required]
  · have length := Session.length_steps_run {} events
    rw [h.steps, List.length_mapIdx] at length
    simpa using length

end TestScript.History
