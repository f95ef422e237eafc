import Mathlib.Algebra.Ring.Nat
import Mathlib.Data.List.GetD
import TestScript.Proofs.Table.Widths
import TestScript.Proofs.Text.Trimming

/-!
The columns of a line. A line whose cells have room is as wide as the line of dashes before white
space is taken from its end, and each cell stands at the offset of its column, alone up to white
space at its end.
-/

namespace TestScript.Table

/-- Where a column starts: behind the columns before it and the spaces that part them. -/
def offset (widths : List Nat) (k : Nat) : Nat := ((widths.take k).map (· + 2)).sum

/-- The characters of a line that stand in a column, the line filled up to the length of the line of
dashes. -/
def column (widths : List Nat) (dashes line : String) (k : Nat) : List Char :=
  ((line.toList.rightpad dashes.length ' ').drop (offset widths k)).take (widths.getD k 0)

/-- A line from which the cells can be read, up to white space at their ends. -/
structure Shows (widths : List Nat) (dashes line : String) (cells : List String) : Prop where
  trimmed : ∀ c ∈ line.toList.getLast?, Text.isBlank c = false
  within : line.length ≤ dashes.length
  whole : ∀ k < widths.length, (column widths dashes line k).length = widths.getD k 0
  cell : ∀ k < widths.length,
    Text.trimEnd (String.ofList (column widths dashes line k)) = Text.trimEnd (cells.getD k "")

@[simp] theorem offset_zero (ws : List Nat) : offset ws 0 = 0 := rfl

@[simp] theorem offset_cons_succ (width : Nat) (ws : List Nat) (k : Nat) :
    offset (width :: ws) (k + 1) = width + 2 + offset ws k := by
  simp [offset]

theorem getElem?_cut (ws : List Nat) (cs : List Char) (k : Nat) :
    (cut ws cs)[k]? =
      ws[k]?.map fun width => ((cs.drop (offset ws k)).rightpad width ' ').take width := by
  induction ws generalizing cs k with
  | nil => rfl
  | cons width ws ih =>
    cases k with
    | zero => rfl
    | succ k =>
      rw [cut, List.getElem?_cons_succ, List.getElem?_cons_succ, ih, List.drop_drop,
        offset_cons_succ]

theorem map_cut_alike (ws : List Nat) {cs ds : List Char}
    (alike : Text.withoutBlankEnd cs = Text.withoutBlankEnd ds) :
    (cut ws cs).map Text.withoutBlankEnd = (cut ws ds).map Text.withoutBlankEnd := by
  induction ws generalizing cs ds with
  | nil => rfl
  | cons width ws ih =>
    have first := Text.take_alike (Text.rightpad_alike alike width) width
    have later := ih (Text.drop_alike alike (width + 2))
    rw [cut, cut, List.map_cons, List.map_cons, first, later]

/-- Blocks parted by two spaces are cut where they were put together. -/
theorem cut_intercalate (blocks : List (List Char)) :
    cut (blocks.map List.length) ([' ', ' '].intercalate blocks) = blocks := by
  induction blocks with
  | nil => rfl
  | cons block blocks ih =>
    cases blocks with
    | nil => simp [cut, List.rightpad]
    | cons next blocks =>
      have wide (rest : List Char) :
          ((block ++ [' ', ' '] ++ rest).rightpad block.length ' ').take block.length = block := by
        simp [List.rightpad, List.append_assoc]
      have behind (rest : List Char) :
          (block ++ [' ', ' '] ++ rest).drop (block.length + 2) = rest := by
        rw [List.drop_append_of_le_length (by simp)]
        simp
      rw [List.map_cons, cut, List.intercalate_cons_cons, wide, behind, ih]

theorem length_intercalate_congr {sep : List Char} {blocks others : List (List Char)}
    (same : blocks.map List.length = others.map List.length) :
    (sep.intercalate blocks).length = (sep.intercalate others).length := by
  induction blocks generalizing others with
  | nil =>
    obtain rfl : others = [] := by simpa using same.symm
    rfl
  | cons block blocks ih =>
    obtain _ | ⟨other, others⟩ := others
    · simp at same
    rw [List.map_cons, List.map_cons, List.cons.injEq] at same
    obtain ⟨first, rest⟩ := same
    obtain _ | ⟨next, blocks⟩ := blocks
    · obtain rfl : others = [] := by simpa using rest.symm
      simpa using first
    · obtain _ | ⟨next', others⟩ := others
      · simp at rest
      rw [List.intercalate_cons_cons, List.intercalate_cons_cons, List.length_append,
        List.length_append, List.length_append, List.length_append, first, ih rest]

theorem mapM_eq_some_iff_map {α β : Type} {f : α → Option β} {p : α → Prop} {g : α → β}
    {xs : List α} {ys : List β} (h : ∀ x ∈ xs, ∀ y, f x = some y ↔ p x ∧ g x = y) :
    xs.mapM f = some ys ↔ (∀ x ∈ xs, p x) ∧ xs.map g = ys := by
  induction xs generalizing ys with
  | nil => simp
  | cons x xs ih =>
    obtain ⟨first, rest⟩ := List.forall_mem_cons.1 h
    simp [Option.bind_eq_some_iff, first, ih rest, and_assoc]

/-- The line of cells in columns that are not too wide. -/
def line (widths : List Nat) (cells : List String) : String :=
  Text.trimEnd ("  ".intercalate (List.zipWith Text.padEnd widths cells))

/-- The cells of a line, filled up to the widths of their columns. -/
def blocks (widths : List Nat) (cells : List String) : List (List Char) :=
  List.zipWith (fun width cell => cell.toList.rightpad width ' ') widths cells

theorem toList_line (ws : List Nat) (cells : List String) :
    (line ws cells).toList = Text.withoutBlankEnd ([' ', ' '].intercalate (blocks ws cells)) := by
  simp [line, blocks, Text.padEnd, String.toList_intercalate, List.map_zipWith]

section Fits

variable {ws : List Nat} {cells : List String} (fits : Fits ws cells)
include fits

/-- A line can be set if and only if none of its columns is too wide. -/
theorem line?_eq_some_iff {l : String} :
    line? ws cells = some l ↔ (∀ width ∈ ws, width ≤ Text.widest) ∧ line ws cells = l := by
  have widths : (ws.zip cells).map Prod.fst = ws := List.map_fst_zip fits.length_eq.le
  have narrow : (∀ p ∈ ws.zip cells, p.1 ≤ Text.widest) ↔ ∀ width ∈ ws, width ≤ Text.widest := by
    conv_rhs => rw [← widths, List.forall_mem_map]
  have filled : (ws.zip cells).map (fun p => Text.padEnd p.1 p.2) =
      List.zipWith Text.padEnd ws cells :=
    List.map_uncurry_zip_eq_zipWith (f := Text.padEnd) ..
  have set {texts : List String} :
      (ws.zip cells).mapM (fun p => Text.padEnd? p.1 p.2) = some texts ↔
        (∀ width ∈ ws, width ≤ Text.widest) ∧ List.zipWith Text.padEnd ws cells = texts := by
    rw [mapM_eq_some_iff_map fun _ _ _ => Text.padEnd?_eq_some_iff, narrow, filled]
  simp [line?, line, Option.bind_eq_some_iff, set, and_assoc]

theorem map_length_blocks : (blocks ws cells).map List.length = ws := by
  induction fits with
  | nil => rfl
  | cons room _ ih =>
    rw [blocks, List.zipWith_cons_cons, List.map_cons, List.length_rightpad, String.length_toList,
      Nat.max_eq_left room]
    exact congrArg _ ih

theorem map_blocks :
    (blocks ws cells).map Text.withoutBlankEnd =
      cells.map fun cell => Text.withoutBlankEnd cell.toList := by
  induction fits with
  | nil => rfl
  | cons _ _ ih =>
    rw [blocks, List.zipWith_cons_cons, List.map_cons, Text.withoutBlankEnd_rightpad]
    exact congrArg _ ih

theorem map_cut_line :
    (cut ws (line ws cells).toList).map Text.withoutBlankEnd =
      cells.map fun cell => Text.withoutBlankEnd cell.toList := by
  have untrimmed :
      Text.withoutBlankEnd (line ws cells).toList =
        Text.withoutBlankEnd ([' ', ' '].intercalate (blocks ws cells)) := by
    rw [toList_line, Text.withoutBlankEnd_withoutBlankEnd]
  have whole : cut ws ([' ', ' '].intercalate (blocks ws cells)) = blocks ws cells := by
    have read := cut_intercalate (blocks ws cells)
    rwa [map_length_blocks fits] at read
  rw [map_cut_alike ws untrimmed, whole, map_blocks fits]

theorem length_line_le : (line ws cells).length ≤ (rule ws).length := by
  have as_wide : ([' ', ' '].intercalate (blocks ws cells)).length = (rule ws).length := by
    rw [← String.length_toList, toList_rule]
    apply length_intercalate_congr
    rw [map_length_blocks fits]
    simp [Function.comp_def]
  rw [← as_wide, ← String.length_toList, toList_line]
  exact (Text.withoutBlankEnd_prefix _).length_le

end Fits

/-- A column lies within the line of dashes. -/
theorem offset_add_le {ws : List Nat} {k width : Nat} (h : ws[k]? = some width) :
    offset ws k + width ≤ (rule ws).length := by
  rw [← String.length_toList, toList_rule]
  induction ws generalizing k with
  | nil => simp at h
  | cons first ws ih =>
    cases ws with
    | nil =>
      obtain rfl : k = 0 := by simpa using (List.getElem?_eq_some_iff.1 h).1
      obtain rfl : first = width := by simpa using h
      simp
    | cons next ws =>
      rw [List.map_cons, List.map_cons, List.intercalate_cons_cons, List.length_append]
      cases k with
      | zero =>
        obtain rfl : first = width := by simpa using h
        simp only [offset_zero, List.length_append, List.length_replicate]
        omega
      | succ k =>
        have within := ih (k := k) h
        rw [List.map_cons] at within
        simp only [offset_cons_succ, List.length_append, List.length_replicate, List.length_cons,
          List.length_nil]
        omega

theorem shows_line {ws : List Nat} {cells : List String} (fits : Fits ws cells) :
    Shows ws (rule ws) (line ws cells) cells where
  trimmed := by
    rw [toList_line]
    exact fun c last => Text.not_isBlank_of_mem_getLast? last
  within := length_line_le fits
  whole := by
    intro k hk
    have inside := offset_add_le (List.getElem?_eq_getElem hk)
    have filled : (rule ws).length ≤ max (rule ws).length (line ws cells).toList.length :=
      Nat.le_max_left _ _
    rw [column, List.length_take, List.length_drop, List.length_rightpad,
      List.getD_eq_getElem _ _ hk]
    omega
  cell := by
    intro k hk
    have hc : k < cells.length := fits.length_eq ▸ hk
    have read := congrArg (·[k]?) (map_cut_line fits)
    simp only [List.getElem?_map, getElem?_cut, List.getElem?_eq_getElem hk,
      List.getElem?_eq_getElem hc, Option.map_some, Option.some.injEq] at read
    -- the column of the line as it is, filled up only where the line ends within it
    have same : Text.withoutBlankEnd (column ws (rule ws) (line ws cells) k) =
        Text.withoutBlankEnd
          ((((line ws cells).toList.drop (offset ws k)).rightpad ws[k] ' ').take ws[k]) := by
      rw [column, List.getD_eq_getElem _ _ hk]
      apply Text.take_alike
      rw [Text.withoutBlankEnd_rightpad]
      apply Text.drop_alike
      rw [Text.withoutBlankEnd_rightpad]
    rw [Text.trimEnd, String.toList_ofList, same, read, List.getD_eq_getElem _ _ hc, Text.trimEnd]

end TestScript.Table
