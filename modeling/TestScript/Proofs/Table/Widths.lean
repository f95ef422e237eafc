import Mathlib.Data.List.Forall2
import TestScript.Table

namespace TestScript.Table

/-- Every row has a cell for each head. -/
def Regular (t : Table) : Prop := ∀ row ∈ t.rows, row.length = heads.length

/-- Every cell has room in its column. -/
def Fits (widths : List Nat) (cells : List String) : Prop :=
  List.Forall₂ (fun width cell => cell.length ≤ width) widths cells

theorem Fits.length_le {ws : List Nat} {cells : List String} (fits : Fits ws cells) {n : Nat}
    (narrow : ∀ width ∈ ws, width ≤ n) : ∀ cell ∈ cells, cell.length ≤ n := by
  induction fits with
  | nil => exact List.forall_mem_nil _
  | cons room _ ih =>
    obtain ⟨first, rest⟩ := List.forall_mem_cons.1 narrow
    exact List.forall_mem_cons.2 ⟨Nat.le_trans room first, ih rest⟩

theorem length_foldl_widths {rows : List (List String)} {ws : List Nat}
    (regular : ∀ row ∈ rows, row.length = ws.length) :
    (rows.foldl (List.zipWith fun width cell => max width cell.length) ws).length = ws.length := by
  induction rows generalizing ws with
  | nil => rfl
  | cons row rows ih =>
    have row_length := regular row List.mem_cons_self
    have kept : (List.zipWith (fun width cell => max width cell.length) ws row).length =
        ws.length := by simp [row_length]
    rw [List.foldl_cons, ih fun r h => by rw [kept, regular r (List.mem_cons_of_mem _ h)], kept]

theorem getElem?_foldl_widths {rows : List (List String)} {ws : List Nat} {k width : Nat}
    (regular : ∀ row ∈ rows, row.length = ws.length) (now : ws[k]? = some width) :
    (rows.foldl (List.zipWith fun width cell => max width cell.length) ws)[k]? =
      some ((rows.map fun row => (row.getD k "").length).foldl max width) := by
  induction rows generalizing ws width with
  | nil => exact now
  | cons row rows ih =>
    have row_length := regular row List.mem_cons_self
    have column : k < row.length := row_length ▸ (List.getElem?_eq_some_iff.1 now).1
    have wider : (List.zipWith (fun width cell => max width cell.length) ws row)[k]? =
        some (max width (row.getD k "").length) := by
      simp [List.getElem?_zipWith, now, List.getElem?_eq_getElem column]
    rw [List.foldl_cons, List.map_cons, List.foldl_cons]
    refine ih (fun r h => ?_) wider
    simp [row_length, regular r (List.mem_cons_of_mem _ h)]

variable {t : Table} (regular : t.Regular)
include regular

theorem Regular.counted :
    ∀ row ∈ t.rows, row.length = (heads.map String.length).length := by
  intro row h
  rw [List.length_map, regular row h]

theorem length_widths : t.widths.length = 7 := by
  rw [widths, length_foldl_widths regular.counted]
  rfl

theorem getElem?_widths {k : Nat} (column : k < 7) :
    t.widths[k]? = ((heads :: t.rows).map fun cells => (cells.getD k "").length).max? := by
  have head : (heads.map String.length)[k]? = some (heads.getD k "").length := by
    have present : k < heads.length := column
    simp [List.getElem?_eq_getElem present]
  rw [widths, getElem?_foldl_widths regular.counted head, List.map_cons, List.max?_cons']

theorem fits_widths {cells : List String} (h : cells ∈ heads :: t.rows) : Fits t.widths cells := by
  have cells_length : cells.length = 7 := by
    rcases List.mem_cons.1 h with rfl | row
    · rfl
    · exact regular cells row
  have same_length : t.widths.length = cells.length := by
    rw [length_widths regular, cells_length]
  refine List.forall₂_iff_get.2 ⟨same_length, fun k hk hc => ?_⟩
  have greatest := getElem?_widths regular (cells_length ▸ hc)
  rw [List.getElem?_eq_getElem hk, eq_comm, List.max?_eq_some_iff] at greatest
  have cell := greatest.2 _ (List.mem_map_of_mem h)
  simpa [hc] using cell

theorem exists_cell_of_mem_widths {width : Nat} (h : width ∈ t.widths) :
    ∃ cells ∈ heads :: t.rows, ∃ cell ∈ cells, width = cell.length := by
  obtain ⟨k, hk, rfl⟩ := List.mem_iff_getElem.1 h
  have column : k < 7 := length_widths regular ▸ hk
  have greatest := getElem?_widths regular column
  rw [List.getElem?_eq_getElem hk, eq_comm, List.max?_eq_some_iff] at greatest
  obtain ⟨cells, mem, widest⟩ := List.mem_map.1 greatest.1
  have there : k < cells.length := by
    rw [(fits_widths regular mem).length_eq] at hk
    exact hk
  exact ⟨cells, mem, cells[k], List.getElem_mem there, by simpa [there] using widest.symm⟩

/-- No column is too wide if and only if no text of a row is; the heads never are. -/
theorem forall_widths_le_iff :
    (∀ width ∈ t.widths, width ≤ Text.widest) ↔
      ∀ row ∈ t.rows, ∀ cell ∈ row, cell.length ≤ Text.widest := by
  constructor
  · intro narrow row mem
    exact (fits_widths regular (List.mem_cons_of_mem _ mem)).length_le narrow
  · intro short width mem
    obtain ⟨cells, row, cell, here, rfl⟩ := exists_cell_of_mem_widths regular mem
    have heads_short : ∀ head ∈ heads, head.length ≤ Text.widest := by decide
    obtain rfl | row := List.mem_cons.1 row
    · exact heads_short cell here
    · exact short cells row cell here

theorem widths_pos {width : Nat} (h : width ∈ t.widths) : 0 < width := by
  obtain ⟨k, hk, rfl⟩ := List.mem_iff_getElem.1 h
  have fits : Fits t.widths heads := fits_widths regular List.mem_cons_self
  have column : k < heads.length := fits.length_eq ▸ hk
  have room := (List.forall₂_iff_get.1 fits).2 k hk column
  have named : ∀ head ∈ heads, 0 < head.length := by decide
  exact Nat.lt_of_lt_of_le (named _ (List.get_mem heads _)) room

omit regular

theorem toList_rule (ws : List Nat) :
    (rule ws).toList = [' ', ' '].intercalate (ws.map (List.replicate · '-')) := by
  simp [rule, String.toList_intercalate, Function.comp_def]

theorem ruleWidths_rule {ws : List Nat} (wide : ∀ width ∈ ws, 0 < width) :
    ruleWidths (rule ws) = ws := by
  have solid (width : Nat) : ' ' ∉ List.replicate width '-' := by simp
  rw [ruleWidths, toList_rule]
  induction ws with
  | nil => rfl
  | cons width ws ih =>
    have present : List.replicate width '-' ≠ [] := by
      simpa using Nat.pos_iff_ne_zero.1 (wide width List.mem_cons_self)
    have later := ih fun v h => wide v (List.mem_cons_of_mem _ h)
    cases ws with
    | nil => simp [List.splitOn_eq_singleton (solid width), present]
    | cons next ws =>
      -- the two spaces leave an empty run between the runs of dashes
      have cut (rest : List Char) : (List.replicate width '-' ++ [' ', ' '] ++ rest).splitOn ' ' =
          List.replicate width '-' :: [] :: rest.splitOn ' ' := by
        rw [List.append_assoc, List.cons_append, List.cons_append, List.nil_append,
          List.splitOn_append_cons_self_of_not_mem (solid width),
          ← List.nil_append (' ' :: rest),
          List.splitOn_append_cons_self_of_not_mem List.not_mem_nil]
      rw [List.map_cons] at later ⊢
      rw [List.map_cons, List.intercalate_cons_cons, cut,
        List.filter_cons_of_pos (by simpa using present), List.filter_cons_of_neg (by simp),
        List.map_cons, later, List.length_replicate]

end TestScript.Table
