import TestScript.Page.Gestures
import TestScript.Proofs.Browse.Separation
import TestScript.Proofs.Form.Offering
import TestScript.Proofs.Page.Texts

namespace TestScript

/-- No choice is offered twice, and none of them is empty. -/
theorem Action.nodup_labels_offered (a : Action) :
    ("" :: a.offered.map LocatorKind.label).Nodup := by
  cases a with
  | known verb => cases verb <;> decide
  | custom name =>
    rw [offered_custom]
    decide

namespace Page

open Html

/-- The choice that an option stands for. Without a value its text would be sent. -/
def Choice.ofMark (m : Mark) : Choice :=
  ⟨(m.attribute? "value").getD m.content, m.content, (m.attribute? "selected").isSome⟩

/-- The choices of the first select element. -/
def choicesIn (marks : List Mark) : List Choice :=
  let select :=
    (marks.dropWhile (·.opened? ≠ some "select")).takeWhile (·.tag ≠ .closing "select")
  (select.filter (·.opened? = some "option")).map Choice.ofMark

/-- The choices that a page offers, read from its text. -/
def readChoices? (html : String) : Option (List Choice) :=
  (Markup.read? html).map fun m => choicesIn m.marks

theorem choicesIn_append {before : List Mark} (h : ∀ m ∈ before, m.opened? ≠ some "select")
    (marks : List Mark) : choicesIn (before ++ marks) = choicesIn marks := by
  have passed : (before ++ marks).dropWhile (·.opened? ≠ some "select") =
      marks.dropWhile (·.opened? ≠ some "select") :=
    List.dropWhile_append_of_pos fun m hm => decide_eq_true (h m hm)
  rw [choicesIn, passed, choicesIn]

/-- The tree has a select element with these choices, whatever stands after it. -/
def Displays (html : Html) (shown : List Choice) : Prop :=
  ∀ rest, choicesIn (html.marks ++ rest) = shown

/-- An element displays what one of the elements in it does, if none before that has a select. -/
theorem displays_element {tag : String} (other : tag ≠ "select") (attributes : List Attribute)
    (before : List Html) (none : before.all (!·.opens "select") = true) {child : Html}
    {after : List Html} (elements : (before ++ child :: after).all isElement = true)
    {shown : List Choice} (h : Displays child shown) :
    Displays (.element tag attributes (before ++ child :: after)) shown := by
  intro rest
  have opening : ∀ m ∈ [(⟨.opening tag (attributes.map escapeAttribute), ""⟩ : Mark)],
      m.opened? ≠ some "select" := by
    simpa [Mark.opened?] using other
  have earlier : ∀ m ∈ before.flatMap marks, m.opened? ≠ some "select" := by
    intro m hm
    obtain ⟨html, hh, hm⟩ := List.mem_flatMap.1 hm
    have free := List.all_eq_true.1 none html hh
    exact opened?_ne_of_opens_eq_false (by simpa using free) hm
  rw [marks_node tag attributes elements, List.flatMap_append, List.flatMap_cons,
    ← List.singleton_append, List.append_assoc, choicesIn_append opening, List.append_assoc,
    List.append_assoc, choicesIn_append earlier, List.append_assoc]
  exact h _

theorem ofMark_choice (c : Choice) :
    Choice.ofMark ⟨.opening "option" (c.attributes.map escapeAttribute), escapeText c.content⟩ =
      c := by
  obtain ⟨value, content, selected⟩ := c
  simp only [Choice.ofMark, attribute?_escaped, Mark.content, unescape_escapeText]
  cases selected <;> rfl

theorem options_choice (c : Choice) :
    (c.html.marks.filter (·.opened? = some "option")).map Choice.ofMark = [c] := by
  have only : c.html.marks.filter (·.opened? = some "option") =
      [⟨.opening "option" (c.attributes.map escapeAttribute), escapeText c.content⟩] := by
    rw [marks_choice]
    rfl
  rw [only, List.map_singleton, ofMark_choice]

/-- A select element ends before anything that is not one of its options. -/
theorem displays_select (attributes : List Attribute) (cs : List Choice) :
    Displays (.element "select" attributes (cs.map Choice.html)) cs := by
  intro rest
  have elements : (cs.map Choice.html).all isElement = true := by simp [Choice.html, isElement]
  have inner : ∀ m ∈ cs.flatMap (·.html.marks), decide (m.tag ≠ .closing "select") = true := by
    intro m hm
    obtain ⟨c, _, hm⟩ := List.mem_flatMap.1 hm
    rw [marks_choice, List.mem_cons, List.mem_singleton] at hm
    rcases hm with rfl | rfl <;> simp
  have options : ((cs.flatMap (·.html.marks)).filter (·.opened? = some "option")).map
      Choice.ofMark = cs := by
    simp only [List.filter_flatMap, List.map_flatMap, options_choice, List.flatMap_singleton']
  rw [marks_node _ _ elements, List.flatMap_map, List.cons_append, List.append_assoc,
    List.singleton_append, choicesIn]
  -- what is read begins with the tag itself, and ends at the first one that closes it
  rw [List.dropWhile_cons_of_neg (by simp [Mark.opened?]), List.takeWhile_cons_of_pos (by simp),
    List.takeWhile_append_of_pos inner, List.takeWhile_cons_of_neg (by simp), List.append_nil,
    List.filter_cons_of_neg (by simp [Mark.opened?]), options]

theorem displays_kindChoice (d : Draft) (kinds : List LocatorKind) :
    Displays (kindChoice d kinds) (choices d kinds) :=
  displays_element (by decide) _ [labelled "span" Field.kind.label] rfl rfl (displays_select _ _)

theorem displays_form (d : Draft) (kinds : List LocatorKind) (hint : Option String) :
    Displays (form d kinds hint) (choices d kinds) := by
  have none : [suggestions, input d .description, input d .action].all (!·.opens "select") =
      true := by
    simp [suggestions, input, node, labelled]
  exact displays_element (by decide) _ _ none rfl (displays_kindChoice d kinds)

theorem isElement_steps (steps : List Step) (message : String) :
    (Page.steps steps message).isElement = true := by
  unfold Page.steps
  split <;> rfl

theorem isNamed_steps (steps : List Step) (message : String) :
    (Page.steps steps message).isNamed = true := by
  unfold Page.steps
  split
  · simp [node, isNamed_element, isName, Markup.isNameChar]
  · exact isNamed_table _

theorem displays_practicePanel (form : Form) (hint : Option String) :
    Displays (practicePanel form hint) (choices form.draft form.kinds) := by
  have elements : [node "div" "panel-header" [labelled "h2" "Build your own test"],
      Page.form form.draft form.kinds hint,
      steps form.steps "No custom steps yet. Fill in the form and add one."].all isElement =
      true := by
    rw [List.all_cons, List.all_cons, List.all_cons, isElement_steps]
    rfl
  exact displays_element (by decide) _ [_] rfl elements (displays_form _ _ _)

theorem isNamed_practicePanel (form : Form) (hint : Option String) :
    (practicePanel form hint).isNamed = true := by
  simp [practicePanel, node, labelled, isNamed_element, isName, Markup.isNameChar, isNamed_form,
    isNamed_steps]

theorem readChoices?_render {html : Html} (element : html.isElement = true)
    (named : html.isNamed = true) {shown : List Choice} (h : Displays html shown) :
    readChoices? html.render = some shown := by
  have all := h []
  rw [List.append_nil] at all
  rw [readChoices?, read?_render element named, Option.map_some, all]

theorem values_choices (d : Draft) (kinds : List LocatorKind) :
    (choices d kinds).map (·.value) = "" :: kinds.map LocatorKind.label := by
  simp [choices]

theorem selected_of_mem_choices {d : Draft} {kinds : List LocatorKind} {c : Choice}
    (h : c ∈ choices d kinds) : c.selected = (c.value == d.kind) := by
  rcases List.mem_cons.1 h with rfl | other
  · exact BEq.comm
  · obtain ⟨k, _, rfl⟩ := List.mem_map.1 other
    rfl

/-- If no two values are the same, no two choices are selected. -/
theorem selected_choices {d : Draft} {kinds : List LocatorKind}
    (nodup : ("" :: kinds.map LocatorKind.label).Nodup) :
    ((choices d kinds).filter (·.selected)).map (·.value) =
      if d.kind = "" ∨ ∃ k ∈ kinds, k.label = d.kind then [d.kind] else [] := by
  have among : d.kind ∈ "" :: kinds.map LocatorKind.label ↔
      d.kind = "" ∨ ∃ k ∈ kinds, k.label = d.kind := by
    rw [List.mem_cons, List.mem_map]
  calc
    ((choices d kinds).filter (·.selected)).map (·.value)
        = ((choices d kinds).filter (·.value == d.kind)).map (·.value) := by
      rw [List.filter_congr fun c hc => selected_of_mem_choices hc]
    _ = ((choices d kinds).map (·.value)).filter (· == d.kind) := by
      rw [List.filter_map]
      rfl
    _ = List.replicate (("" :: kinds.map LocatorKind.label).count d.kind) d.kind := by
      rw [values_choices, List.filter_beq]
    _ = _ := by
      rw [nodup.count]
      simp only [among]
      split <;> rfl

theorem readChoices?_form (d : Draft) (kinds : List LocatorKind) (hint : Option String) :
    readChoices? (form d kinds hint).render = some (choices d kinds) :=
  readChoices?_render rfl (isNamed_form d kinds hint) (displays_form d kinds hint)

end Page

namespace App

open Html Page

/-- The choices that the page offers, if there is a page. -/
def choices? (app : App) (build : Build) : Option (List Choice) :=
  (app.page? build).bind fun page => readChoices? page.render

theorem choices?_of_practice {app : App} (practice : app.session.selection.tab = .practice)
    (build : Build) :
    app.choices? build = some (choices app.session.form.draft app.session.form.kinds) := by
  let panel := practicePanel app.session.form app.hint
  let main := node "main" "main"
    [lessonButtons app.session.selection.lesson, tabButtons app.session.selection.tab, panel]
  let page := node "div" "app" [header, main, footer build]
  have drawn : app.page? build = some page := by
    rw [page?, panel?, Session.screen?, Selection.screen?_of_practice practice]
    rfl
  have displayed : Displays page (choices app.session.form.draft app.session.form.kinds) := by
    have buttons : [lessonButtons app.session.selection.lesson,
        tabButtons app.session.selection.tab].all (!·.opens "select") = true := by
      simp [lessonButtons, tabButtons, node, button]
    have inner : Displays main (choices app.session.form.draft app.session.form.kinds) :=
      displays_element (by decide) _ _ buttons rfl (displays_practicePanel _ _)
    exact displays_element (by decide) _ [header] rfl rfl inner
  have named : page.isNamed = true := by
    simp [page, main, panel, header, footer, lessonButtons, tabButtons, node, button, labelled,
      isNamed_element, isName, Markup.isNameChar, isNamed_practicePanel]
  rw [choices?, drawn, Option.bind_some, readChoices?_render rfl named displayed]

/-- A choice on the page has this value. -/
def OnPage (app : App) (build : Build) (value : String) : Prop :=
  ∃ shown, app.choices? build = some shown ∧ value ∈ shown.map (·.value)

/-- What is reached if kinds are chosen on the page only. -/
inductive Chosen (build : Build) : App → Prop where
  | new : Chosen build {}
  | attempt {app : App} (before : Chosen build app) (gesture : Gesture)
      (offered : ∀ kind, gesture = .edit .kind kind → app.OnPage build kind) :
      Chosen build (app.attempt gesture)

theorem form_shown_perform {app : App} (h : app.session.form.Shown) {gesture : Gesture}
    (shows : app.Shows gesture) {build : Build}
    (offered : ∀ kind, gesture = .edit .kind kind → app.OnPage build kind) :
    (app.perform gesture).session.form.Shown := by
  cases gesture with
  | selectLesson | selectTab => exact h
  | commit => exact h.apply_commit
  | edit field text =>
    apply h.edit
    rintro rfl
    obtain ⟨shown, read, among⟩ := offered text rfl
    rw [choices?_of_practice shows] at read
    obtain rfl := Option.some.inj read
    simpa [values_choices] using among

theorem Chosen.form_shown {build : Build} {app : App} (h : Chosen build app) :
    app.session.form.Shown := by
  induction h with
  | new => exact Form.shown_new
  | @attempt app _ gesture offered ih =>
    by_cases shows : app.Shows gesture
    · rw [attempt_of_shows shows]
      exact form_shown_perform ih shows offered
    · rw [attempt_of_not_shows shows]
      exact ih

/-- In the select element of a form, the choices are no kind and each kind that the action offers,
once and in order; the one that is selected is the kind in the draft, or there is none if that is
not among them. Where kinds are chosen on the page only, there is always one. -/
theorem select_shows_kind :
    (∀ (d : Draft) (action : String) (hint : Option String),
      let kinds := (Action.ofLabel action).offered
      ∃ shown, readChoices? (form d kinds hint).render = some shown ∧
        shown.map (·.value) = "" :: kinds.map LocatorKind.label ∧
        (shown.map (·.value)).Nodup ∧
        (shown.filter (·.selected)).map (·.value) =
          if d.kind = "" ∨ ∃ k ∈ kinds, k.label = d.kind then [d.kind] else []) ∧
    ∀ (build : Build) (app : App), Chosen build app → app.session.selection.tab = .practice →
      ∃ page shown, app.page? build = some page ∧ readChoices? page.render = some shown ∧
        (shown.filter (·.selected)).map (·.value) = [app.session.form.draft.kind] := by
  constructor
  · intro d action hint kinds
    have nodup := (Action.ofLabel action).nodup_labels_offered
    refine ⟨choices d kinds, readChoices?_form d kinds hint, values_choices d kinds, ?_,
      selected_choices nodup⟩
    rw [values_choices]
    exact nodup
  · intro build app chosen practice
    have offers := Form.offers_iff.1 chosen.form_shown.draft
    obtain ⟨page, drawn, read⟩ := Option.bind_eq_some_iff.1 (choices?_of_practice practice build)
    have selected := selected_choices (d := app.session.form.draft)
      (Action.ofLabel app.session.form.draft.action).nodup_labels_offered
    rw [if_pos offers] at selected
    exact ⟨page, _, drawn, read, selected⟩

/-- A kind is chosen for one action and stays with another. -/
def linked : List Gesture :=
  [.selectTab .practice, .edit .action "Click", .edit .kind "Link Text", .edit .action "Drag"]

def unstamped : Build := ⟨"", "", ""⟩

theorem select_shows_link :
    (∃ shown, readChoices? (form { kind := "Shadow" } (Action.ofLabel "Drag").offered none).render =
        some shown ∧ (shown.filter (·.selected)).map (·.value) = []) ∧
    Chosen unstamped (({} : App).run linked) ∧
    ∃ page shown, (({} : App).run linked).page? unstamped = some page ∧
      readChoices? page.render = some shown ∧
      (shown.filter (·.selected)).map (·.value) = ["Link Text"] := by
  have start : Chosen unstamped {} := .new
  have click := (start.attempt (.selectTab .practice) nofun).attempt (.edit .action "Click") nofun
  have offered : ∀ kind, .edit .kind "Link Text" = Gesture.edit .kind kind →
      (({} : App).run (linked.take 2)).OnPage unstamped kind := by
    rintro kind ⟨⟩
    exact ⟨_, choices?_of_practice (by decide) _, by decide⟩
  have link := click.attempt (.edit .kind "Link Text") offered
  have chosen : Chosen unstamped (({} : App).run linked) :=
    link.attempt (.edit .action "Drag") nofun
  obtain ⟨shown, read, _, _, selected⟩ := select_shows_kind.1 { kind := "Shadow" } "Drag" none
  exact ⟨⟨shown, read, selected.trans (by decide)⟩, chosen,
    select_shows_kind.2 unstamped _ chosen (by decide)⟩

end App

end TestScript
