import TestScript.Page.Gestures
import TestScript.Proofs.Form.Offering

/-!
Many edits of a form, with lessons and tabs selected in between. Every field has the text that was
last edited into it; but the kind of the locator goes with the first action that does not offer it,
and no later action brings it back.
-/

namespace TestScript

namespace Gesture

/-- The text that a gesture edits into a field. -/
def textFor? (field : Field) : Gesture → Option String
  | .edit other text => if other = field then some text else none
  | _ => none

/-- The texts that are edited into a field, one after the other. -/
def textsFor (field : Field) (gestures : List Gesture) : List String :=
  gestures.filterMap (textFor? field)

theorem textsFor_cons_edit (field other : Field) (text : String) (gestures : List Gesture) :
    textsFor field (.edit other text :: gestures) =
      if other = field then text :: textsFor field gestures else textsFor field gestures := by
  by_cases here : other = field <;> simp [textsFor, textFor?, here]

theorem textsFor_cons_idle {gesture : Gesture} (idle : ∀ field, gesture.textFor? field = none)
    (field : Field) (gestures : List Gesture) :
    textsFor field (gesture :: gestures) = textsFor field gestures :=
  List.filterMap_cons_none (idle field)

end Gesture

namespace Form

theorem edit_get (form : Form) (field : Field) :
    form.edit field (form.draft.get field) = form := by
  have same : form.draft.set field (form.draft.get field) = form.draft := by
    apply Draft.ext_get
    intro other
    rw [Draft.get_set]
    split
    · next here => rw [here]
    · rfl
  rw [edit, same]

theorem offers_congr {form other : Form} (same : form.draft.kind = other.draft.kind)
    (action : String) : form.Offers action ↔ other.Offers action := by
  simp only [Offers, same]

end Form

namespace Session

variable (s : Session)

theorem selection_edit (field : Field) (text : String) :
    (s.edit field text).selection = s.selection := by
  unfold edit edits
  split <;> rfl

theorem get_edit (field other : Field) (text : String) :
    (s.edit field text).form.draft.get other =
      if other = .kind ∧ field = .action ∧ ¬ s.form.Offers text then ""
      else if other = field then text
      else s.form.draft.get other := by
  rcases s.edit_cases field text with ⟨rfl, dropped, eq⟩ | ⟨kept, eq⟩
  · cases other <;> simp [eq, Form.edit, dropped]
  · have idle : ¬ (other = .kind ∧ field = .action ∧ ¬ s.form.Offers text) := by
      rintro ⟨_, action, dropped⟩
      exact dropped (kept action)
    simp [eq, Form.edit, idle]

theorem kind_edit {field : Field} (other : field ≠ .kind) (text : String) :
    (s.edit field text).form.draft.kind =
      if field = .action ∧ ¬ s.form.Offers text then "" else s.form.draft.kind := by
  have kind := s.get_edit field .kind text
  simp only [true_and, if_neg other.symm] at kind
  exact kind

theorem offers_edit_action (text : String) : (s.edit .action text).form.Offers text := by
  rcases s.edit_cases .action text with ⟨_, _, eq⟩ | ⟨kept, eq⟩
  · rw [eq]
    exact .inl rfl
  · rw [eq]
    exact kept rfl

theorem sequence_edit (field : Field) (text : String) :
    (s.edit field text).form.steps = s.form.steps ∧
      (s.edit field text).form.issued = s.form.issued := by
  rcases s.edit_cases field text with ⟨_, _, eq⟩ | ⟨_, eq⟩
  · rw [eq]
    exact ⟨rfl, rfl⟩
  · rw [eq]
    exact ⟨rfl, rfl⟩

/-- An edit that is made again finds its text there, and an action that offers the kind. -/
theorem edit_edit (field : Field) (text : String) :
    (s.edit field text).edit field text = s.edit field text := by
  have here : (s.edit field text).form.draft.get field = text := by
    rw [get_edit]
    cases field <;> simp
  have selection := selection_edit (s.edit field text) field text
  have form : ((s.edit field text).edit field text).form = (s.edit field text).form := by
    rcases (s.edit field text).edit_cases field text with ⟨rfl, dropped, _⟩ | ⟨_, eq⟩
    · exact absurd (s.offers_edit_action text) dropped
    · rw [eq]
      simpa only [here] using (s.edit field text).form.edit_get field
  calc
    (s.edit field text).edit field text =
        ⟨((s.edit field text).edit field text).selection,
          ((s.edit field text).edit field text).form⟩ := rfl
    _ = ⟨(s.edit field text).selection, (s.edit field text).form⟩ := by rw [selection, form]
    _ = s.edit field text := rfl

end Session

/-- What the gestures make of a form if none of them commits or chooses a kind. -/
structure Form.EditedInto (form : Form) (gestures : List Gesture) (next : Form) : Prop where
  kind : next.draft.kind =
    if ∀ action ∈ Gesture.textsFor .action gestures, form.Offers action then form.draft.kind else ""
  texts : ∀ field, field ≠ .kind →
    next.draft.get field = (Gesture.textsFor field gestures).getLast?.getD (form.draft.get field)
  steps : next.steps = form.steps
  issued : next.issued = form.issued

namespace Session

variable {s : Session} {gestures : List Gesture} {next : Form}

/-- A gesture that edits nothing leaves all as it is. -/
theorem editedInto_cons_idle {gesture : Gesture} (idle : ∀ field, gesture.textFor? field = none)
    (rest : s.form.EditedInto gestures next) : s.form.EditedInto (gesture :: gestures) next := by
  refine ⟨?_, ?_, rest.steps, rest.issued⟩
  · rw [Gesture.textsFor_cons_idle idle]
    exact rest.kind
  · intro field hf
    rw [Gesture.textsFor_cons_idle idle]
    exact rest.texts field hf

theorem editedInto_cons_edit {field : Field} (text : String) (other : field ≠ .kind)
    (rest : (s.edit field text).form.EditedInto gestures next) :
    s.form.EditedInto (.edit field text :: gestures) next := by
  obtain ⟨steps, issued⟩ := s.sequence_edit field text
  have kind := s.kind_edit other text
  refine ⟨?_, ?_, rest.steps.trans steps, rest.issued.trans issued⟩
  · by_cases dropped : field = .action ∧ ¬ s.form.Offers text
    · rw [if_pos dropped] at kind
      obtain ⟨rfl, dropped⟩ := dropped
      have refused : ¬ ∀ action ∈ Gesture.textsFor .action (.edit .action text :: gestures),
          s.form.Offers action :=
        fun all => dropped (all text (by simp [Gesture.textsFor_cons_edit]))
      rw [if_neg refused, rest.kind, kind, ite_self]
    · rw [if_neg dropped] at kind
      have same : (∀ action ∈ Gesture.textsFor .action (.edit field text :: gestures),
            s.form.Offers action) ↔
          ∀ action ∈ Gesture.textsFor .action gestures,
            (s.edit field text).form.Offers action := by
        simp only [Form.offers_congr kind]
        by_cases action : field = .action
        · subst action
          have offers : s.form.Offers text := by simpa using dropped
          simp [Gesture.textsFor_cons_edit, offers]
        · simp [Gesture.textsFor_cons_edit, action]
      rw [rest.kind, kind]
      simp only [same]
  · intro asked hk
    rw [rest.texts asked hk, get_edit]
    by_cases here : field = asked
    · subst here
      simp [Gesture.textsFor_cons_edit, other, List.getLast?_cons]
    · simp [Gesture.textsFor_cons_edit, here, hk, Ne.symm here]

theorem editedInto_run {gestures : List Gesture}
    (h : ∀ gesture ∈ gestures, gesture ≠ .commit ∧ ∀ text, gesture ≠ .edit .kind text) :
    s.form.EditedInto gestures (s.run (s.dispatched gestures)).form := by
  induction gestures generalizing s with
  | nil => exact ⟨by simp [Gesture.textsFor, dispatched], fun _ _ => rfl, rfl, rfl⟩
  | cons gesture gestures ih =>
    obtain ⟨first, others⟩ := List.forall_mem_cons.1 h
    cases gesture with
    | selectLesson lesson =>
      exact editedInto_cons_idle (fun _ => rfl) (ih (s := s.apply (.selectLesson lesson)) others)
    | selectTab tab =>
      exact editedInto_cons_idle (fun _ => rfl) (ih (s := s.apply (.selectTab tab)) others)
    | commit => exact absurd rfl first.1
    | edit field text =>
      have other : field ≠ .kind := by
        rintro rfl
        exact first.2 text rfl
      rw [dispatched, run_append]
      exact editedInto_cons_edit text other (ih others)

/-- Whatever is edited but the kind itself, the kind is there in the end just if every action on the
way offers it, be it only for the length of a keystroke. All other fields have their last texts, the
sequence is as it was, and no edit does anything when it is made a second time. -/
theorem kind_survives_edits (s : Session) (gestures : List Gesture)
    (edits : ∀ gesture ∈ gestures, gesture ≠ .commit ∧ ∀ text, gesture ≠ .edit .kind text) :
    let kind := s.form.draft.kind
    let form := (s.run (s.dispatched gestures)).form
    (form.draft.kind =
      if ∀ action ∈ Gesture.textsFor .action gestures,
        ∃ k ∈ (Action.ofLabel action).offered, k.label = kind then kind else "") ∧
    (∀ field, field ≠ .kind → form.draft.get field =
      (Gesture.textsFor field gestures).getLast?.getD (s.form.draft.get field)) ∧
    form.steps = s.form.steps ∧ form.issued = s.form.issued ∧
    ∀ (t : Session) (field : Field) (text : String),
      let once := t.run (t.edits field text)
      once.run (once.edits field text) = once := by
  intro kind form
  have edited : s.form.EditedInto gestures form := editedInto_run edits
  refine ⟨?_, edited.texts, edited.steps, edited.issued, edit_edit⟩
  rw [edited.kind]
  by_cases empty : kind = ""
  · change (if _ then kind else "") = _
    rw [empty, ite_self, ite_self]
  · have offers (action : String) : s.form.Offers action ↔
        ∃ k ∈ (Action.ofLabel action).offered, k.label = kind :=
      Form.offers_iff.trans (or_iff_right empty)
    simp only [offers, kind]

/-- An action is typed anew, with a look at a script and at another lesson before it is done. -/
def retyped (action : String) : List Gesture :=
  [.edit .action "Ty", .selectTab .script, .edit .locator ".a", .selectLesson ⟨2⟩,
   .edit .action action, .edit .action "Click"]

/-- A form with an action and a kind of locator. -/
def begun (kind : String) : Session := { form := { draft := { action := "Click", kind } } }

/-- The form when the action has been typed anew. -/
def retypedForm (kind action : String) : Form :=
  ((begun kind).run ((begun kind).dispatched (retyped action))).form

/-- A link text stays with an unfinished verb, but not with the finished one, although the last
action would offer it again. A kind that is not known never stays. -/
theorem kind_survives_retyping :
    (∀ action, ∀ gesture ∈ retyped action,
      gesture ≠ .commit ∧ ∀ text, gesture ≠ .edit .kind text) ∧
    (retypedForm "Link Text" "Typ").draft.kind = "Link Text" ∧
    (retypedForm "Link Text" "Typ").draft.action = "Click" ∧
    (retypedForm "Link Text" "Typ").draft.locator = ".a" ∧
    (retypedForm "Link Text" "Type").draft.kind = "" ∧
    (retypedForm "Shadow" "Typ").draft.kind = "" := by
  have edits (action : String) : ∀ gesture ∈ retyped action,
      gesture ≠ .commit ∧ ∀ text, gesture ≠ .edit .kind text := by
    simp [retyped]
  obtain ⟨kind, texts, _⟩ := kind_survives_edits (begun "Link Text") (retyped "Typ") (edits _)
  obtain ⟨dropped, _⟩ := kind_survives_edits (begun "Link Text") (retyped "Type") (edits _)
  obtain ⟨unknown, _⟩ := kind_survives_edits (begun "Shadow") (retyped "Typ") (edits _)
  exact ⟨edits, kind.trans (by decide), texts .action (by decide), texts .locator (by decide),
    dropped.trans (by decide), unknown.trans (by decide)⟩

end Session

end TestScript
