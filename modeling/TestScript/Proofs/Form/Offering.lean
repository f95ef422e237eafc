import TestScript.Proofs.Form.Commit

namespace TestScript

theorem LocatorKind.ofLabel_label_of_mem_all {k : LocatorKind} (h : k ∈ all) :
    ofLabel k.label = k := by
  obtain ⟨strategy, _, rfl⟩ := List.mem_map.1 h
  exact ofLabel_label_known strategy

namespace Action

theorem mem_all_of_mem_offered {a : Action} {k : LocatorKind} (h : k ∈ a.offered) :
    k ∈ LocatorKind.all := by
  cases a with
  | custom name => exact h
  | known verb =>
    rw [offered_known, kinds, List.mem_map] at h
    obtain ⟨strategy, _, rfl⟩ := h
    exact List.mem_map.2 ⟨strategy, strategy.mem_all, rfl⟩

theorem accepts_of_mem_offered {a : Action} {k : LocatorKind} (h : k ∈ a.offered) :
    a.Accepts k := by
  cases a with
  | custom name => exact accepts_custom name k
  | known verb => exact accepts_known_iff.2 (offered_known verb ▸ h)

end Action

namespace Session

/-- One edit in the form, with the event that it may bring along. -/
def edit (s : Session) (field : Field) (text : String) : Session :=
  s.run (s.edits field text)

theorem form_edit_of_dropped {s : Session} {text : String} (h : ¬ s.form.Offers text) :
    (s.edit .action text).form = (s.form.edit .action text).edit .kind "" := by
  simp [edit, edits, h, apply]

theorem form_edit_of_kept {s : Session} {field : Field} {text : String}
    (h : field = .action → s.form.Offers text) :
    (s.edit field text).form = s.form.edit field text := by
  have kept : ¬ (field = .action ∧ ¬ s.form.Offers text) := fun ⟨hf, dropped⟩ => dropped (h hf)
  simp [edit, edits, kept, apply]

/-- Everything that an edit can do to a form. -/
theorem edit_cases (s : Session) (field : Field) (text : String) :
    (field = .action ∧ ¬ s.form.Offers text ∧
      (s.edit field text).form = (s.form.edit .action text).edit .kind "") ∨
    ((field = .action → s.form.Offers text) ∧
      (s.edit field text).form = s.form.edit field text) := by
  by_cases dropped : field = .action ∧ ¬ s.form.Offers text
  · obtain ⟨rfl, dropped⟩ := dropped
    exact .inl ⟨rfl, dropped, form_edit_of_dropped dropped⟩
  · have kept : field = .action → s.form.Offers text := by
      intro hf
      by_cases offers : s.form.Offers text
      · exact offers
      · exact absurd ⟨hf, offers⟩ dropped
    exact .inr ⟨kept, form_edit_of_kept kept⟩

/-- What a user can do with the form on the screen. A kind is chosen, all other texts are typed. -/
inductive Used : Session → Session → Prop where
  | edit (s : Session) (field : Field) (text : String)
      (chosen : field = .kind → text = "" ∨ ∃ k ∈ s.form.kinds, k.label = text) :
      Used s (s.edit field text)
  | commit (s : Session) : Used s (s.apply .commit)
  | selectTab (s : Session) (tab : Tab) : Used s (s.apply (.selectTab tab))
  | selectLesson (s : Session) (lesson : LessonIndex) : Used s (s.apply (.selectLesson lesson))

inductive Reached : Session → Prop where
  | new : Reached {}
  | use {s t : Session} : Reached s → Used s t → Reached t

end Session

namespace Form

theorem offers_iff {form : Form} {action : String} :
    form.Offers action ↔
      form.draft.kind = "" ∨ ∃ k ∈ (Action.ofLabel action).offered, k.label = form.draft.kind := by
  simp only [Offers, List.mem_map]

/-- The kind in the draft is among those to choose from, and so was the kind of every step. -/
structure Shown (form : Form) : Prop where
  draft : form.Offers form.draft.action
  steps : ∀ step ∈ form.steps, step.kind ∈ LocatorKind.all ∧ step.action.Accepts step.kind

theorem shown_new : ({} : Form).Shown := ⟨.inl rfl, fun _ hs => (List.not_mem_nil hs).elim⟩

theorem Shown.accept {form : Form} (h : form.Shown) (ready : form.draft.missing = []) :
    form.accept.2.Shown := by
  obtain ⟨_, kind, _⟩ := Draft.missing_eq_nil_iff.1 ready
  obtain ⟨k, hk, label⟩ := (offers_iff.1 h.draft).resolve_left kind
  have known := Action.mem_all_of_mem_offered hk
  have read : LocatorKind.ofLabel form.draft.kind = k := by
    rw [← label, LocatorKind.ofLabel_label_of_mem_all known]
  refine ⟨.inl rfl, List.forall_mem_append.2 ⟨h.steps, List.forall_mem_singleton.2 ?_⟩⟩
  simp only [Draft.toStep, read]
  exact ⟨known, Action.accepts_of_mem_offered hk⟩

theorem Shown.apply_commit {form : Form} (h : form.Shown) : (form.apply .commit).Shown := by
  rcases form.apply_cases .commit with ⟨_, _, he, _⟩ | ⟨_, ready, eq⟩ | ⟨_, _, eq⟩
  · cases he
  · rw [eq]
    exact h.accept ready
  · rw [eq]
    exact h

/-- The action may take the kind away, but it never leaves one that is not on offer. -/
theorem Shown.edit {s : Session} (h : s.form.Shown) {field : Field} {text : String}
    (chosen : field = .kind → text = "" ∨ ∃ k ∈ s.form.kinds, k.label = text) :
    (s.edit field text).form.Shown := by
  rcases s.edit_cases field text with ⟨_, _, eq⟩ | ⟨kept, eq⟩
  · rw [eq]
    exact ⟨.inl rfl, h.steps⟩
  · rw [eq]
    refine ⟨?_, h.steps⟩
    -- only these two fields have a part in what is on offer
    cases field with
    | action => exact kept rfl
    | kind => exact offers_iff.2 (chosen rfl)
    | description | locator | data | expected => exact h.draft

theorem Shown.used {s t : Session} (h : s.form.Shown) (use : s.Used t) : t.form.Shown := by
  cases use with
  | edit field text chosen => exact h.edit chosen
  | commit => exact Session.form_apply s .commit ▸ h.apply_commit
  | selectTab | selectLesson => exact h

end Form

namespace Session

theorem Reached.form_shown {s : Session} (h : s.Reached) : s.form.Shown := by
  induction h with
  | new => exact Form.shown_new
  | use _ use ih => exact ih.used use

/-- The select element of the form can always show the kind in the draft, and no step was ever made
with a kind that is unknown or that its action does not accept. -/
theorem Reached.kind_on_offer {s : Session} (h : s.Reached) :
    (s.form.draft.kind = "" ∨ ∃ k ∈ s.form.kinds, k.label = s.form.draft.kind) ∧
    ∀ step ∈ s.form.steps,
      step.kind ∈ LocatorKind.all ∧ (∀ name, step.kind ≠ .custom name) ∧
      step.action.Accepts step.kind := by
  have shown := h.form_shown
  refine ⟨Form.offers_iff.1 shown.draft, ?_⟩
  intro step hs
  obtain ⟨known, accepts⟩ := shown.steps step hs
  refine ⟨known, ?_, accepts⟩
  intro name eq
  obtain ⟨strategy, _, same⟩ := List.mem_map.1 known
  rw [eq] at same
  cases same

/-- A button is written down, and another one begun that turns into a link text. -/
def buttons : Session :=
  let first := ((({} : Session).edit .action "Click").edit .kind "CSS").edit .locator ".btn"
  (((first.apply .commit).edit .action "Click").edit .kind "Link Text").edit .action "Drag"

theorem buttons_kind_on_offer :
    buttons.Reached ∧ buttons.form.draft.kind = "Link Text" ∧ buttons.form.steps.length = 1 ∧
    (buttons.form.draft.kind = "" ∨ ∃ k ∈ buttons.form.kinds, k.label = buttons.form.draft.kind) ∧
    ∀ step ∈ buttons.form.steps,
      step.kind ∈ LocatorKind.all ∧ (∀ name, step.kind ≠ .custom name) ∧
      step.action.Accepts step.kind := by
  have first := ((Reached.new.use (.edit _ .action "Click" nofun)).use
    (.edit _ .kind "CSS" fun _ => .inr (by decide))).use (.edit _ .locator ".btn" nofun)
  have second := ((first.use (.commit _)).use (.edit _ .action "Click" nofun)).use
    (.edit _ .kind "Link Text" fun _ => .inr (by decide))
  have reached : buttons.Reached := second.use (.edit _ .action "Drag" nofun)
  exact ⟨reached, by decide, by decide, reached.kind_on_offer⟩

end Session

end TestScript
