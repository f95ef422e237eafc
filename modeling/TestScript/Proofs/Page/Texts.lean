import TestScript.Page.Components
import TestScript.Proofs.Page.Marks

namespace TestScript.Page

open Html

/-- The marks of a row with these texts in its cells. -/
def rowMarks (cellTag : String) (cells : List String) : List Mark :=
  ⟨.opening "tr" [], ""⟩ ::
    (cells.flatMap (fun cell => [⟨.opening cellTag [], cell⟩, ⟨.closing cellTag, ""⟩]) ++
      [⟨.closing "tr", ""⟩])

/-- The marks of a table with its heads and these rows. -/
def tableMarks (rows : List (List String)) : List Mark :=
  [⟨.opening "table" [⟨"class", "step-table"⟩], ""⟩, ⟨.opening "thead" [], ""⟩] ++
    rowMarks "th" Table.heads ++ [⟨.closing "thead", ""⟩, ⟨.opening "tbody" [], ""⟩] ++
    rows.flatMap (rowMarks "td") ++ [⟨.closing "tbody", ""⟩, ⟨.closing "table", ""⟩]

theorem marks_row (cellTag : String) (cells : List String) :
    (row cellTag cells).marks = rowMarks cellTag (cells.map escapeText) := by
  have cell (text : String) : (labelled cellTag text).marks =
      [⟨.opening cellTag [], escapeText text⟩, ⟨.closing cellTag, ""⟩] := marks_leaf cellTag [] text
  have elements : (cells.map (labelled cellTag)).all isElement = true := by
    simp [labelled, isElement]
  rw [row, marks_node _ _ elements, List.flatMap_map]
  simp [rowMarks, cell, List.flatMap_map]

theorem marks_rows (cellTag : String) (rows : List (List String)) :
    (rows.map (row cellTag)).flatMap marks =
      (rows.map (·.map escapeText)).flatMap (rowMarks cellTag) := by
  simp [List.flatMap_map, marks_row]

theorem marks_table (t : Table) : (table t).marks = tableMarks (t.rows.map (·.map escapeText)) := by
  have heads : Table.heads.map escapeText = Table.heads := by decide
  have elements : (t.rows.map (row "td")).all isElement = true := by simp [row, isElement]
  rw [table, node, marks_node _ _ rfl, List.flatMap_cons, List.flatMap_singleton,
    marks_node "thead" _ rfl, List.flatMap_singleton, marks_row, heads,
    marks_node "tbody" _ elements, marks_rows]
  have closed : escapeValue "step-table" = "step-table" := by decide
  simp [tableMarks, escapeAttribute, closed]

/-- The attributes of a text input. -/
def inputAttributes (d : Draft) (field : Field) : List Attribute :=
  [⟨"value", d.get field⟩, ⟨"name", field.key⟩] ++
    (if field = .action then [⟨"list", actionList⟩] else []) ++ [⟨"spellcheck", "false"⟩]

theorem marks_input (d : Draft) (field : Field) :
    (input d field).marks =
      [⟨.opening "label" ([⟨"class", classWhen (field ∈ Field.required) "form-field" "required"⟩].map
          escapeAttribute), ""⟩,
        ⟨.opening "span" [], escapeText field.label⟩, ⟨.closing "span", ""⟩,
        ⟨.opening "input" ((inputAttributes d field).map escapeAttribute), ""⟩,
        ⟨.closing "label", ""⟩] := by
  rw [input, node, marks_node _ _ rfl, List.flatMap_cons, List.flatMap_singleton, labelled,
    marks_leaf, marks_void]
  rfl

/-- The attributes of an entry of the select element. -/
def Choice.attributes (c : Choice) : List Attribute :=
  ⟨"value", c.value⟩ :: if c.selected then [⟨"selected", "selected"⟩] else []

theorem marks_choice (c : Choice) :
    c.html.marks =
      [⟨.opening "option" (c.attributes.map escapeAttribute), escapeText c.content⟩,
        ⟨.closing "option", ""⟩] :=
  marks_leaf "option" c.attributes c.content

theorem marks_kindChoice (d : Draft) (kinds : List LocatorKind) :
    (kindChoice d kinds).marks =
      [⟨.opening "label" ([⟨"class", "form-field required"⟩].map escapeAttribute), ""⟩,
        ⟨.opening "span" [], escapeText Field.kind.label⟩, ⟨.closing "span", ""⟩,
        ⟨.opening "select" ([⟨"name", Field.kind.key⟩].map escapeAttribute), ""⟩] ++
      (choices d kinds).flatMap (·.html.marks) ++
      [⟨.closing "select", ""⟩, ⟨.closing "label", ""⟩] := by
  have elements : ((choices d kinds).map Choice.html).all isElement = true := by
    simp [Choice.html, isElement]
  rw [kindChoice, node, marks_node _ _ rfl, List.flatMap_cons, List.flatMap_singleton, labelled,
    marks_leaf, marks_node _ _ elements, List.flatMap_map]
  simp

/-- The marks of what stands under the inputs. -/
def actionMarks (hint : Option String) : List Mark :=
  [⟨.opening "div" ([⟨"class", "form-actions"⟩].map escapeAttribute), ""⟩,
    ⟨.opening "button" ([⟨"class", "add-step-button"⟩].map escapeAttribute), escapeText "Add Step"⟩,
    ⟨.closing "button", ""⟩] ++
  hint.toList.flatMap (fun text =>
    [⟨.opening "span" ([⟨"class", "form-hint"⟩].map escapeAttribute), escapeText text⟩,
      ⟨.closing "span", ""⟩]) ++
  [⟨.closing "div", ""⟩]

theorem marks_form (d : Draft) (kinds : List LocatorKind) (hint : Option String) :
    (form d kinds hint).marks =
      [⟨.opening "div" ([⟨"class", "step-form"⟩].map escapeAttribute), ""⟩] ++
      suggestions.marks ++ (input d .description).marks ++ (input d .action).marks ++
      (kindChoice d kinds).marks ++ (input d .locator).marks ++ (input d .data).marks ++
      (input d .expected).marks ++ actionMarks hint ++ [⟨.closing "div", ""⟩] := by
  have actions : marks (node "div" "form-actions" (button "add-step-button" "Add Step" ::
      hint.toList.map fun text => node "span" "form-hint" [.text text])) = actionMarks hint := by
    cases hint with
    | none => rw [node, marks_node _ _ rfl]; simp [button, node, marks_leaf, actionMarks]
    | some text => rw [node, marks_node _ _ rfl]; simp [button, node, marks_leaf, actionMarks]
  rw [form, node, marks_node _ _ rfl]
  simp [actions]

/-- The outline of an entry, which is marked or not. -/
def choiceOutline (selected : Bool) : List Tag :=
  [.opening "option" (⟨"value", ""⟩ :: if selected then [⟨"selected", ""⟩] else []),
    .closing "option"]

theorem outline_choices (choices : List Choice) :
    (choices.flatMap (·.html.marks)).map (·.tag.outline) =
      (choices.map (·.selected)).flatMap choiceOutline := by
  have outline (c : Choice) : c.html.marks.map (·.tag.outline) = choiceOutline c.selected := by
    rw [marks_choice]
    cases h : c.selected <;>
      simp [Choice.attributes, choiceOutline, h, Tag.outline, escapeAttribute]
  rw [List.map_flatMap, List.flatMap_map]
  simp only [outline]

theorem outline_input (d e : Draft) (field : Field) :
    (input d field).marks.map (·.tag.outline) = (input e field).marks.map (·.tag.outline) := by
  rw [marks_input, marks_input]
  simp [inputAttributes, Tag.outline, escapeAttribute]

theorem outline_actions {hint other : Option String} (h : hint.isSome = other.isSome) :
    (actionMarks hint).map (·.tag.outline) = (actionMarks other).map (·.tag.outline) := by
  cases hint with
  | none =>
    obtain rfl : other = none := by simpa using h
    rfl
  | some text =>
    obtain ⟨text', rfl⟩ := Option.isSome_iff_exists.1 h.symm
    rfl

/-- The page has the same tags wherever the same entry is chosen and a hint is there or not. -/
theorem outline_form {d e : Draft} {kinds others : List LocatorKind} {hint other : Option String}
    (selected : (choices d kinds).map (·.selected) = (choices e others).map (·.selected))
    (hinted : hint.isSome = other.isSome) :
    (form d kinds hint).marks.map (·.tag.outline) =
      (form e others other).marks.map (·.tag.outline) := by
  have kind : (kindChoice d kinds).marks.map (·.tag.outline) =
      (kindChoice e others).marks.map (·.tag.outline) := by
    simp only [marks_kindChoice, List.map_append, outline_choices, selected]
  simp only [marks_form, List.map_append, outline_input d e, kind, outline_actions hinted]

theorem attribute?_escaped (tag : String) (attributes : List Attribute) (text name : String) :
    (⟨.opening tag (attributes.map escapeAttribute), text⟩ : Mark).attribute? name =
      (attributes.find? (·.name = name)).map (·.value) := by
  have value : (fun a => unescape (escapeAttribute a).value) = Attribute.value :=
    funext fun a => unescape_escapeValue a.value
  simp only [Mark.attribute?, List.find?_map, Option.map_map]
  exact congrArg (Option.map · _) value

theorem inputs_input (d : Draft) (field : Field) :
    ((input d field).marks.filter (·.opened? = some "input")).map
        (fun m => (m.attribute? "name", m.attribute? "value")) =
      [(some field.key, some (d.get field))] := by
  have only : (input d field).marks.filter (·.opened? = some "input") =
      [⟨.opening "input" ((inputAttributes d field).map escapeAttribute), ""⟩] := by
    rw [marks_input]
    rfl
  rw [only, List.map_singleton, attribute?_escaped, attribute?_escaped]
  rfl

/-- The texts of the draft are in the inputs, each under the name of its field. -/
theorem inputs_form (d : Draft) (kinds : List LocatorKind) (hint : Option String) :
    ((form d kinds hint).marks.filter (·.opened? = some "input")).map
        (fun m => (m.attribute? "name", m.attribute? "value")) =
      [.description, .action, .locator, .data, .expected].map fun field =>
        (some field.key, some (d.get field)) := by
  have suggestions : suggestions.marks.filter (·.opened? = some "input") = [] := by decide
  have choice (c : Choice) : c.html.marks.filter (·.opened? = some "input") = [] := by
    rw [marks_choice]
    rfl
  have kind : (kindChoice d kinds).marks.filter (·.opened? = some "input") = [] := by
    simp only [marks_kindChoice, List.filter_append, List.filter_flatMap, choice]
    simp [Mark.opened?]
  have actions : (actionMarks hint).filter (·.opened? = some "input") = [] := by
    cases hint <;> rfl
  simp only [marks_form, List.filter_append, List.map_append, suggestions, inputs_input, kind,
    actions]
  rfl

/-- The mark that the hint of a form follows. -/
def isHint (m : Mark) : Bool :=
  m.opened? = some "span" && m.attribute? "class" = some "form-hint"

theorem hints_form (d : Draft) (kinds : List LocatorKind) (hint : Option String) :
    ((form d kinds hint).marks.filter isHint).map Mark.content = hint.toList := by
  have suggestions : suggestions.marks.filter isHint = [] := by decide
  have input (field : Field) : (input d field).marks.filter isHint = [] := by
    rw [marks_input]
    rfl
  have choice (c : Choice) : c.html.marks.filter isHint = [] := by
    rw [marks_choice]
    rfl
  have kind : (kindChoice d kinds).marks.filter isHint = [] := by
    simp only [marks_kindChoice, List.filter_append, List.filter_flatMap, choice]
    simp [isHint, Mark.opened?, Mark.attribute?]
  have actions : ((actionMarks hint).filter isHint).map Mark.content = hint.toList := by
    cases hint with
    | none => rfl
    | some text =>
      have only : (actionMarks (some text)).filter isHint =
          [⟨.opening "span" ([⟨"class", "form-hint"⟩].map escapeAttribute), escapeText text⟩] := rfl
      simp [only, Mark.content]
  simp only [marks_form, List.filter_append, List.map_append, suggestions, input, kind, actions]
  simp [isHint, Mark.opened?]

theorem isNamed_table (t : Table) : (table t).isNamed = true := by
  simp [table, node, row, labelled, isNamed_element, isName, Markup.isNameChar]

theorem isNamed_input (d : Draft) (field : Field) : (input d field).isNamed = true := by
  cases field <;>
    simp [input, node, labelled, isNamed_element, isNamed_void, isName, Markup.isNameChar]

theorem isNamed_choice (c : Choice) : c.html.isNamed = true := by
  cases h : c.selected <;>
    simp [Choice.html, h, isNamed_element, isName, Markup.isNameChar]

theorem isNamed_form (d : Draft) (kinds : List LocatorKind) (hint : Option String) :
    (form d kinds hint).isNamed = true := by
  have kind : (kindChoice d kinds).isNamed = true := by
    simp [kindChoice, node, labelled, isNamed_element, isName, Markup.isNameChar, isNamed_choice]
  have suggestions : suggestions.isNamed = true := by decide
  simp [form, node, button, isNamed_element, isName, Markup.isNameChar, isNamed_input, kind,
    suggestions]

theorem isNamed_scriptPanel (title script : String) :
    (scriptPanel title script).isNamed = true := by
  simp [scriptPanel, node, labelled, button, isNamed_element, isName, Markup.isNameChar]

theorem scripts_scriptPanel (title script : String) :
    ((scriptPanel title script).marks.filter (·.opened? = some "pre")).map Mark.content =
      [script] := by
  have only : (scriptPanel title script).marks.filter (·.opened? = some "pre") =
      [⟨.opening "pre" ([⟨"class", "script-output"⟩].map escapeAttribute), escapeText script⟩] := by
    rw [scriptPanel, node, marks_node _ _ rfl]
    simp [node, labelled, button, marks_node, isElement, marks_leaf, Mark.opened?]
  simp [only, Mark.content]

theorem cells_rowMarks (cells : List String) :
    ((rowMarks "td" cells).filter (·.opened? = some "td")).map Mark.text = cells := by
  simp [rowMarks, List.filter_flatMap, List.map_flatMap, Mark.opened?]

theorem cells_tableMarks (rows : List (List String)) :
    ((tableMarks rows).filter (·.opened? = some "td")).map Mark.text = rows.flatten := by
  have heads : (rowMarks "th" Table.heads).filter (·.opened? = some "td") = [] := by decide
  simp only [tableMarks, List.filter_append, heads, List.filter_flatMap, List.map_append,
    List.map_flatMap, cells_rowMarks]
  simp [Mark.opened?]

/-- Rows of one width are found again in the cells of the table one after the other. -/
theorem tableMarks_inj {first second : List (List String)}
    (widths : ∀ row ∈ first, row.length = 7) (widths' : ∀ row ∈ second, row.length = 7)
    (h : tableMarks first = tableMarks second) : first = second := by
  have cells : first.flatten = second.flatten := by
    rw [← cells_tableMarks, h, cells_tableMarks]
  have lengths : first.map List.length = List.replicate first.length 7 :=
    List.eq_replicate_iff.2 ⟨List.length_map _, List.forall_mem_map.2 widths⟩
  have lengths' : second.map List.length = List.replicate second.length 7 :=
    List.eq_replicate_iff.2 ⟨List.length_map _, List.forall_mem_map.2 widths'⟩
  have count : first.length * 7 = second.length * 7 := by
    have both := congrArg List.length cells
    simpa [List.length_flatten, lengths, lengths'] using both
  have same : first.length = second.length := by omega
  exact List.eq_iff_flatten_eq.2 ⟨cells, by rw [lengths, lengths', same]⟩

theorem read?_steps {steps : List Step} {message : String} (shown : steps ≠ [] ∨ message = "") :
    Markup.read? (Page.steps steps message).render =
      some { marks := tableMarks ((Table.ofSteps steps).rows.map (·.map escapeText)) } := by
  have table : Page.steps steps message = table (Table.ofSteps steps) := by
    have not_empty : ¬ (steps = [] ∧ message ≠ "") := by
      rintro ⟨none, some⟩
      exact shown.elim (absurd none) (absurd · some)
    exact if_neg not_empty
  rw [table, read?_render rfl (isNamed_table _), marks_table]

theorem length_of_mem_escaped {steps : List Step} {cells : List String}
    (h : cells ∈ (Table.ofSteps steps).rows.map (·.map escapeText)) : cells.length = 7 := by
  obtain ⟨row, hr, rfl⟩ := List.mem_map.1 h
  obtain ⟨step, _, rfl⟩ := List.mem_map.1 hr
  rw [List.length_map, step.length_texts]

theorem map_unescape_escaped (rows : List (List String)) :
    (rows.map (·.map escapeText)).map (·.map unescape) = rows := by
  simp [Function.comp_def]

/-- The page is read again from its text. A table has one row of seven cells for each step, a form
has the same tags and attributes whatever is written in it, and in both of them, as in a script, the
texts are there as they were written. -/
theorem texts_kept :
    (∀ steps, (Table.ofSteps steps).rows = steps.map fun s =>
      [s.id, s.description, s.action.label, s.kind.label, s.locator, s.data, s.expected]) ∧
    (∀ steps message, (steps ≠ [] ∨ message = "") → ∃ cells : List (List String),
      Markup.read? (Page.steps steps message).render = some { marks := tableMarks cells } ∧
      cells.length = steps.length ∧ (∀ row ∈ cells, row.length = 7) ∧
      cells.map (·.map unescape) = (Table.ofSteps steps).rows) ∧
    (∀ first second message message', (first ≠ [] ∨ message = "") → (second ≠ [] ∨ message' = "") →
      (Page.steps first message).render = (Page.steps second message').render →
        (Table.ofSteps first).rows = (Table.ofSteps second).rows) ∧
    (∀ d kinds hint, ∃ marks, Markup.read? (form d kinds hint).render = some { marks } ∧
      (marks.filter (·.opened? = some "input")).map
          (fun m => (m.attribute? "name", m.attribute? "value")) =
        [(some "description", some d.description), (some "action", some d.action),
          (some "locator", some d.locator), (some "testData", some d.data),
          (some "expectedResult", some d.expected)] ∧
      (marks.filter isHint).map Mark.content = hint.toList) ∧
    (∀ d e kinds others hint other, kinds.length = others.length →
      (choices d kinds).map (·.selected) = (choices e others).map (·.selected) →
      hint.isSome = other.isSome →
        (Markup.read? (form d kinds hint).render).map (·.marks.map (·.tag.outline)) =
          (Markup.read? (form e others other).render).map (·.marks.map (·.tag.outline))) ∧
    (∀ title steps, ∃ marks,
      Markup.read? (scriptPanel title (Script.ofSteps steps)).render = some { marks } ∧
      (marks.filter (·.opened? = some "pre")).map Mark.content = [Script.ofSteps steps]) := by
  have read_form (d : Draft) (kinds : List LocatorKind) (hint : Option String) :
      Markup.read? (form d kinds hint).render = some { marks := (form d kinds hint).marks } :=
    read?_render rfl (isNamed_form d kinds hint)
  refine ⟨fun _ => rfl, ?_, ?_, ?_, ?_, ?_⟩
  · intro steps message shown
    exact ⟨_, read?_steps shown, by simp, fun _ => length_of_mem_escaped, map_unescape_escaped _⟩
  · intro first second message message' shown shown' same
    have read := read?_steps shown
    rw [same, read?_steps shown'] at read
    have cells := tableMarks_inj (fun _ => length_of_mem_escaped) (fun _ => length_of_mem_escaped)
      (congrArg Markup.marks (Option.some.inj read))
    rw [← map_unescape_escaped (Table.ofSteps first).rows, ← cells, map_unescape_escaped]
  · intro d kinds hint
    exact ⟨_, read_form d kinds hint, inputs_form d kinds hint, hints_form d kinds hint⟩
  · intro d e kinds others hint other _ selected hinted
    rw [read_form, read_form, Option.map_some, Option.map_some, outline_form selected hinted]
  · intro title steps
    exact ⟨_, read?_render rfl (isNamed_scriptPanel _ _), scripts_scriptPanel _ _⟩

/-- A step whose texts look like parts of a page. -/
def tricky : Step :=
  ⟨"</td><td>", "a &amp; b", .custom "&lt;", .custom "\" value=\"", "<pre>", "", "&"⟩

theorem tricky_kept :
    (∃ cells : List (List String),
      Markup.read? (Page.steps [tricky] "").render = some { marks := tableMarks cells } ∧
      cells.length = 1 ∧ (∀ row ∈ cells, row.length = 7) ∧
      cells.map (·.map unescape) =
        [["</td><td>", "a &amp; b", "&lt;", "\" value=\"", "<pre>", "", "&"]]) ∧
    (Markup.read? (form { locator := tricky.id } [tricky.kind] (some "<b>")).render).map
        (·.marks.map (·.tag.outline)) =
      (Markup.read? (form { data := tricky.description } [.known .css] (some "")).render).map
        (·.marks.map (·.tag.outline)) := by
  obtain ⟨_, table, _, _, outline, _⟩ := texts_kept
  exact ⟨table [tricky] "" (by decide), outline _ _ _ _ _ _ rfl (by decide) rfl⟩

end TestScript.Page
