import TestScript.Proofs.Table.Columns
import TestScript.Proofs.Text.Splitting

namespace TestScript.Table

open Text (trimEnd)

/-- No text of a step holds a line feed. -/
def Unbroken (steps : List Step) : Prop :=
  ∀ s ∈ steps, ∀ text ∈ [s.id, s.description, s.action.label, s.kind.label, s.locator, s.data,
    s.expected], '\n' ∉ text.toList

instance (steps : List Step) : Decidable (Unbroken steps) := List.decidableBAll _ _

/-- The lines of a table whose columns are not too wide. -/
def lines (t : Table) : List String :=
  line t.widths heads :: rule t.widths :: t.rows.map (line t.widths)

/-- A table can be set if and only if none of its texts is too long. -/
theorem text?_eq_some_iff {t : Table} (regular : t.Regular) {text : String} :
    t.text? = some text ↔
      (∀ row ∈ t.rows, ∀ cell ∈ row, cell.length ≤ Text.widest) ∧
        "\n".intercalate t.lines = text := by
  have head {l : String} := line?_eq_some_iff (fits_widths regular List.mem_cons_self) (l := l)
  have rows {ls : List String} : t.rows.mapM (line? t.widths) = some ls ↔
      (∀ row ∈ t.rows, ∀ width ∈ t.widths, width ≤ Text.widest) ∧
        t.rows.map (line t.widths) = ls :=
    mapM_eq_some_iff_map fun row mem _ =>
      line?_eq_some_iff (fits_widths regular (List.mem_cons_of_mem _ mem))
  rw [← forall_widths_le_iff regular]
  simp only [text?, Option.bind_eq_bind, Option.bind_eq_some_iff, head, rows, lines]
  constructor
  · rintro ⟨_, ⟨narrow, rfl⟩, _, ⟨_, rfl⟩, told⟩
    exact ⟨narrow, Option.some.inj told⟩
  · rintro ⟨narrow, rfl⟩
    exact ⟨_, ⟨narrow, rfl⟩, _, ⟨fun _ _ => narrow, rfl⟩, rfl⟩

theorem exists_of_mem_blocks {ws : List Nat} {cells : List String} {block : List Char}
    (h : block ∈ blocks ws cells) :
    ∃ width, ∃ cell ∈ cells, block = cell.toList.rightpad width ' ' := by
  rw [blocks, ← List.map_uncurry_zip_eq_zipWith] at h
  obtain ⟨⟨width, cell⟩, mem, rfl⟩ := List.mem_map.1 h
  exact ⟨width, cell, (List.of_mem_zip mem).2, rfl⟩

theorem newline_not_mem_line (ws : List Nat) {cells : List String}
    (unbroken : ∀ cell ∈ cells, '\n' ∉ cell.toList) : '\n' ∉ (line ws cells).toList := by
  intro broken
  rw [toList_line] at broken
  rcases Text.mem_of_mem_intercalate ((Text.withoutBlankEnd_prefix _).subset broken) with
    between | ⟨block, mem, broken⟩
  · simp at between
  · obtain ⟨width, cell, hc, rfl⟩ := exists_of_mem_blocks mem
    rcases List.mem_append.1 broken with own | filled
    · exact unbroken cell hc own
    · exact absurd (List.eq_of_mem_replicate filled) (by decide)

theorem newline_not_mem_rule (ws : List Nat) : '\n' ∉ (rule ws).toList := by
  intro broken
  rw [toList_rule] at broken
  rcases Text.mem_of_mem_intercalate broken with between | ⟨dashes, mem, broken⟩
  · simp at between
  · obtain ⟨width, _, rfl⟩ := List.mem_map.1 mem
    exact absurd (List.eq_of_mem_replicate broken) (by decide)

theorem newline_not_mem_heads : ∀ head ∈ heads, '\n' ∉ head.toList := by decide

theorem splitOn_lines {t : Table} (unbroken : ∀ row ∈ t.rows, ∀ cell ∈ row, '\n' ∉ cell.toList) :
    (("\n".intercalate t.lines).toList.splitOn '\n').map String.ofList = t.lines := by
  have on_one_line : ∀ l ∈ t.lines, '\n' ∉ l.toList := by
    refine List.forall_mem_cons.2 ⟨?_, List.forall_mem_cons.2 ⟨?_, ?_⟩⟩
    · exact newline_not_mem_line _ newline_not_mem_heads
    · exact newline_not_mem_rule _
    · exact List.forall_mem_map.2 fun row h => newline_not_mem_line _ (unbroken row h)
  exact Text.map_ofList_splitOn_intercalate (List.cons_ne_nil _ _) on_one_line

theorem cells_rule {ws : List Nat} {row : List String} (wide : ∀ width ∈ ws, 0 < width)
    (fits : Fits ws row) : cells (rule ws) (line ws row) = row.map trimEnd := by
  have read := congrArg (List.map String.ofList) (map_cut_line fits)
  rw [List.map_map, List.map_map] at read
  rw [cells, ruleWidths_rule wide]
  exact read

theorem read?_lines {t : Table} (regular : t.Regular)
    (unbroken : ∀ row ∈ t.rows, ∀ cell ∈ row, '\n' ∉ cell.toList) :
    read? ("\n".intercalate t.lines) = some ((heads :: t.rows).map (·.map trimEnd)) := by
  have read : ∀ row ∈ heads :: t.rows,
      cells (rule t.widths) (line t.widths row) = row.map trimEnd :=
    fun row h => cells_rule (fun _ => widths_pos regular) (fits_widths regular h)
  have lines_cells :
      (line t.widths heads :: t.rows.map (line t.widths)).map (cells (rule t.widths)) =
        (heads :: t.rows).map (·.map trimEnd) := by
    rw [← List.map_cons, List.map_map]
    exact List.map_congr_left read
  rw [read?, splitOn_lines unbroken, lines]
  exact congrArg some lines_cells

theorem regular_ofSteps (steps : List Step) : (ofSteps steps).Regular :=
  List.forall_mem_map.2 fun step _ => step.length_texts

/-- Steps have a plain text if and only if none of their texts is too long. -/
theorem text?_ofSteps_eq_some_iff {steps : List Step} {text : String} :
    (ofSteps steps).text? = some text ↔
      (∀ s ∈ steps, ∀ cell ∈ s.texts, cell.length ≤ Text.widest) ∧
        "\n".intercalate (ofSteps steps).lines = text := by
  rw [text?_eq_some_iff (regular_ofSteps steps), rows_ofSteps, List.forall_mem_map]

theorem Unbroken.rows {steps : List Step} (unbroken : Unbroken steps) :
    ∀ row ∈ (ofSteps steps).rows, ∀ cell ∈ row, '\n' ∉ cell.toList :=
  List.forall_mem_map.2 unbroken

/-- A table has a plain text just if no text of a step is longer than a column can be. The text has
a line for the heads, a line of dashes and a line for each step. The dashes tell the columns, each
as wide as its widest cell and no wider, and in every line the columns hold the cells up to white
space at their ends, so steps with the same text have the same cells up to that. -/
theorem text_readable {steps : List Step} (unbroken : Unbroken steps) :
    let row := fun s : Step =>
      [s.id, s.description, s.action.label, s.kind.label, s.locator, s.data, s.expected]
    let heads := ["Test ID", "Description", "Action", "Locator Type", "Locator", "Test Data",
      "Expected Result"]
    ((∃ text, (ofSteps steps).text? = some text) ↔
      ∀ s ∈ steps, ∀ text ∈ row s, text.length ≤ 65535) ∧
    ∀ text, (ofSteps steps).text? = some text →
      ∃ widths heading dashes rows,
        (text.toList.splitOn '\n').map String.ofList = heading :: dashes :: rows ∧
        rows.length = steps.length ∧ widths.length = 7 ∧
        (∀ k < 7, widths[k]? =
          ((heads :: steps.map row).map fun texts => (texts.getD k "").length).max?) ∧
        dashes =
          "  ".intercalate (widths.map fun width => String.ofList (List.replicate width '-')) ∧
        Shows widths dashes heading heads ∧
        List.Forall₂ (Shows widths dashes) rows (steps.map row) ∧
        ∀ others, Unbroken others → (ofSteps others).text? = some text →
          others.map (fun s => (row s).map trimEnd) = steps.map fun s => (row s).map trimEnd := by
  intro row heads
  have regular := regular_ofSteps steps
  constructor
  · simp only [text?_ofSteps_eq_some_iff, exists_and_left, exists_eq', and_true]
    rfl
  · intro text told
    obtain ⟨_, rfl⟩ := text?_ofSteps_eq_some_iff.1 told
    refine ⟨(ofSteps steps).widths, _, _, _, splitOn_lines unbroken.rows, by simp,
      length_widths regular, fun k => getElem?_widths regular, rfl,
      shows_line (fits_widths regular List.mem_cons_self), ?_, ?_⟩
    · change List.Forall₂ _ _ (ofSteps steps).rows
      rw [List.forall₂_map_left_iff, List.forall₂_same]
      exact fun cells h => shows_line (fits_widths regular (List.mem_cons_of_mem _ h))
    · intro others unbroken' same
      obtain ⟨_, same⟩ := text?_ofSteps_eq_some_iff.1 same
      have read := read?_lines (regular_ofSteps others) unbroken'.rows
      rw [same, read?_lines regular unbroken.rows, Option.some.injEq, List.map_cons, List.map_cons,
        List.cons.injEq, rows_ofSteps, rows_ofSteps, List.map_map, List.map_map] at read
      exact read.2.symm

/-- Steps with texts that are empty, that are not ASCII and that end in white space. -/
def ragged : List Step :=
  [⟨"Prüfung 1", "日本語\u3000", .known .click, .known .css, "#go ", "\t", "done\u00a0"⟩,
   ⟨"", "", .custom "", .custom "", "", "", ""⟩]

theorem ragged_readable :
    Unbroken ragged ∧
    ∃ text, (ofSteps ragged).text? = some text ∧
      ∃ widths heading dashes rows,
        (text.toList.splitOn '\n').map String.ofList = heading :: dashes :: rows ∧
        rows.length = 2 ∧ widths[0]? = some 9 ∧ widths[1]? = some 11 ∧
        Shows widths dashes heading heads ∧
        List.Forall₂ (Shows widths dashes) rows (ragged.map Step.texts) := by
  have unbroken : Unbroken ragged := by decide
  obtain ⟨set, shown⟩ := text_readable unbroken
  obtain ⟨text, told⟩ := set.2 (by decide)
  obtain ⟨widths, heading, dashes, rows, split, count, _, greatest, _, head, shown, _⟩ :=
    shown text told
  have first := (greatest 0 (by decide)).trans (by decide : _ = some 9)
  have second := (greatest 1 (by decide)).trans (by decide : _ = some 11)
  exact ⟨unbroken, text, told, widths, heading, dashes, rows, split, count, first, second, head,
    shown⟩

end TestScript.Table
