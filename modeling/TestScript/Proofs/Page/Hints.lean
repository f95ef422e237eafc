import TestScript.Page.Gestures
import TestScript.Proofs.Browse.Showing

namespace TestScript

namespace Session

end Session

namespace App

/-- The last gesture that has to do with the hint is a commit, and it was refused. -/
def Refused (done : List Gesture) : Prop :=
  ∃ before after, done = before ++ .commit :: after ∧
    (∀ gesture ∈ after, ∃ tab, gesture = .selectTab tab) ∧
    (({} : App).run before).session.form.commit.1 = false

theorem refused_concat {done : List Gesture} {gesture : Gesture} :
    Refused (done ++ [gesture]) ↔
      (∃ tab, gesture = .selectTab tab) ∧ Refused done ∨
      gesture = .commit ∧ (({} : App).run done).session.form.commit.1 = false := by
  constructor
  · rintro ⟨before, after, eq, tabs, refused⟩
    -- the commit in question is the new gesture, or tabs were selected since
    rcases concat_eq_append_cons_iff.1 eq with ⟨rfl, commit, _⟩ | ⟨between, rfl, rfl⟩
    · exact .inr ⟨commit, refused⟩
    · obtain ⟨tabs, tab⟩ := List.forall_mem_append.1 tabs
      exact .inl ⟨tab gesture List.mem_cons_self, before, between, rfl, tabs, refused⟩
  · rintro (⟨isTab, before, after, rfl, tabs, refused⟩ | ⟨rfl, refused⟩)
    · refine ⟨before, after ++ [gesture], by simp, ?_, refused⟩
      exact List.forall_mem_append.2 ⟨tabs, List.forall_mem_singleton.2 isTab⟩
    · exact ⟨done, [], rfl, nofun, refused⟩

/-- There is a hint if a refused commit asks for one, and it tells what the form lacks now. -/
structure Explains (app : App) (done : List Gesture) : Prop where
  shown_iff : app.hint ≠ none ↔ Refused done
  current : app.hint ≠ none → app.hint = app.session.form.hint?

theorem Explains.perform {done : List Gesture} (h : (({} : App).run done).Explains done)
    (gesture : Gesture) :
    ((({} : App).run done).perform gesture).Explains (done ++ [gesture]) := by
  generalize eq : ({} : App).run done = app at h
  cases gesture with
  | selectTab tab =>
    have same : Refused (done ++ [.selectTab tab]) ↔ Refused done := by simp [refused_concat]
    exact ⟨h.shown_iff.trans same.symm, h.current⟩
  | selectLesson lesson => exact ⟨by simp [refused_concat, App.perform, hintAfter], nofun⟩
  | edit field text => exact ⟨by simp [refused_concat, App.perform, hintAfter], nofun⟩
  | commit =>
    have hint : (app.perform .commit).hint = app.session.form.hint? := rfl
    constructor
    · rw [hint, ne_eq, Form.hint?_eq_none_iff]
      simp [refused_concat, eq, Form.commit_refuses_iff]
    · intro shown
      have missing : app.session.form.draft.missing ≠ [] := mt Form.hint?_eq_none_iff.2 shown
      -- a refused commit leaves the form as the hint found it
      have kept : (app.perform .commit).session.form = app.session.form :=
        congrArg Prod.snd (Form.commit_of_missing_ne_nil missing)
      rw [kept, hint]

end App

end TestScript
