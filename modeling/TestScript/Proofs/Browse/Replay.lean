import TestScript.Proofs.Form.Numbering

/-!
A session can be made again from what it shows. Writing every field makes any draft, so the recorded
events of a step commit that very step: its texts are all there, and its number is its place. The
last two events then select the lesson, which opens its table, and after it the tab.
-/

namespace TestScript

namespace Form

/-- Writing down a draft takes the place of whatever draft there was. -/
theorem foldl_apply_events (form : Form) (d : Draft) :
    d.events.foldl apply form = { form with draft := d } := by
  have written : d.events.foldl apply form = form.fill d := by
    rw [Draft.events, List.foldl_map, fill]
    rfl
  rw [written, fill_eq]

/-- A step that is written down again is committed again, under the next number. -/
theorem foldl_apply_step (form : Form) {step : Step} (h : step.Written) :
    (step.draft.events ++ [Event.commit]).foldl apply form =
      { steps := form.steps ++ [{ step with id := Step.customId (form.issued + 1) }]
        issued := form.issued + 1 } := by
  have ready : ({ form with draft := step.draft } : Form).draft.missing = [] := h.missing_draft
  calc
    (step.draft.events ++ [Event.commit]).foldl apply form
      = ({ form with draft := step.draft } : Form).commit.2 := by
        rw [List.foldl_append, foldl_apply_events]
        rfl
    _ = ({ form with draft := step.draft } : Form).accept.2 := by
        rw [commit_of_missing_eq_nil ready]
    _ = { steps := form.steps ++ [{ step with id := Step.customId (form.issued + 1) }]
          issued := form.issued + 1 } := by
        simp only [accept, h.toStep_draft]

/-- The recorded steps that follow those already done. -/
theorem foldl_apply_steps (done : List Step) {rest : List Step} (written : ∀ step ∈ rest, step.Written)
    (ids : ∀ n (hn : n < rest.length), rest[n].id = Step.customId (done.length + n + 1)) :
    (rest.flatMap fun step => step.draft.events ++ [.commit]).foldl apply
        { steps := done, issued := done.length } =
      { steps := done ++ rest, issued := (done ++ rest).length } := by
  induction rest generalizing done with
  | nil => simp
  | cons step rest ih =>
    obtain ⟨first, written⟩ := List.forall_mem_cons.1 written
    have id : step.id = Step.customId (done.length + 1) := ids 0 (by simp)
    have same : { step with id := Step.customId (done.length + 1) } = step := by rw [← id]
    have later : ∀ n (hn : n < rest.length),
        rest[n].id = Step.customId ((done ++ [step]).length + n + 1) := by
      intro n hn
      have place : done.length + (n + 1) + 1 = (done ++ [step]).length + n + 1 := by
        rw [List.length_append, List.length_singleton]
        omega
      rw [← place]
      exact ids (n + 1) (by simpa using hn)
    rw [List.flatMap_cons, List.foldl_append, foldl_apply_step _ first, same]
    have run := ih (done ++ [step]) written later
    simpa using run

theorem Numbered.foldl_apply_events {form : Form} (h : form.Numbered) :
    form.events.foldl Form.apply {} = form := by
  have ids : ∀ n (hn : n < form.steps.length),
      form.steps[n].id = Step.customId (([] : List Step).length + n + 1) := by
    intro n hn
    rw [h.id_getElem hn, List.length_nil, Nat.zero_add]
  have steps : (form.steps.flatMap fun step => step.draft.events ++ [.commit]).foldl Form.apply {} =
      { form with draft := {} } := by
    have run := foldl_apply_steps [] h.written ids
    simpa [h.issued] using run
  rw [events, List.foldl_append, steps, Form.foldl_apply_events]

end Form

/-- The events that are read off a session lead a new one to the same state, in all its parts. -/
theorem Session.run_record (events : List Event) :
    let s := ({} : Session).run events
    ({} : Session).run s.record = s := by
  intro s
  have numbered : s.form.Numbered := Form.numbered_run_new events
  have form : (({} : Session).run s.form.events).form = s.form := by
    rw [form_run]
    exact numbered.foldl_apply_events
  calc
    ({} : Session).run s.record
      = ⟨⟨s.selection.lesson, s.selection.tab⟩, (({} : Session).run s.form.events).form⟩ := by
        rw [record, run_append]
        rfl
    _ = s := by rw [form]

end TestScript
