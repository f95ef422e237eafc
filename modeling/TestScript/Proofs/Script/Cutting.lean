import Mathlib.Data.List.Infix
import TestScript.Script

namespace TestScript.Script

def pair : List Char := ['\n', '\n']

/-- A character that does not begin a pair belongs to the first part. -/
theorem cut_cons_of_not_pair {c : Char} {cs : List Char} (h : ¬ pair <+: c :: cs) :
    cut (c :: cs) = (cut cs).modifyHead (c :: ·) := by
  rw [cut]
  rintro rest rfl rfl
  exact h ⟨rest, rfl⟩

theorem cut_pair (cs : List Char) : cut (pair ++ cs) = [] :: cut cs := rfl

theorem cut_ne_nil (cs : List Char) : cut cs ≠ [] := by
  fun_induction cut cs with
  | case1 | case2 => exact List.cons_ne_nil _ _
  | case3 c cs _ ih =>
    obtain ⟨first, rest, parts⟩ := List.exists_cons_of_ne_nil ih
    simp [parts]

theorem intercalate_cut (cs : List Char) : pair.intercalate (cut cs) = cs := by
  fun_induction cut cs with
  | case1 => rfl
  | case2 cs ih =>
    obtain ⟨first, rest, parts⟩ := List.exists_cons_of_ne_nil (cut_ne_nil cs)
    rw [parts] at ih ⊢
    rw [List.intercalate_cons_cons, ih]
    rfl
  | case3 c cs _ ih =>
    obtain ⟨first, rest, parts⟩ := List.exists_cons_of_ne_nil (cut_ne_nil cs)
    rw [parts] at ih ⊢
    rw [← ih]
    cases rest <;> simp [List.intercalate_cons_cons]

/-- No part holds a pair, and none but the last ends in a line feed. -/
def Separable (parts : List (List Char)) : Prop :=
  (∀ part ∈ parts, ¬ pair <:+: part) ∧ ∀ part ∈ parts.dropLast, part.getLast? ≠ some '\n'

theorem separable_singleton {part : List Char} : Separable [part] ↔ ¬ pair <:+: part := by
  simp [Separable]

theorem separable_cons_cons {part next : List Char} {rest : List (List Char)} :
    Separable (part :: next :: rest) ↔
      ¬ pair <:+: part ∧ part.getLast? ≠ some '\n' ∧ Separable (next :: rest) := by
  simp only [Separable, List.forall_mem_cons, List.dropLast_cons_cons]
  tauto

theorem Separable.cons_first {c : Char} {first : List Char} {rest : List (List Char)}
    (h : Separable (first :: rest)) (start : ¬ pair <+: c :: pair.intercalate (first :: rest)) :
    Separable ((c :: first) :: rest) := by
  have first_prefix : first <+: pair.intercalate (first :: rest) := by
    cases rest <;> simp [List.intercalate_cons_cons, List.append_assoc]
  have whole : ¬ pair <:+: first → ¬ pair <:+: c :: first := by
    intro absent holds
    rcases List.infix_cons_iff.1 holds with first_two | later
    · exact start (first_two.trans (List.cons_prefix_cons.2 ⟨rfl, first_prefix⟩))
    · exact absent later
  cases rest with
  | nil => exact separable_singleton.2 (whole (separable_singleton.1 h))
  | cons next rest =>
    obtain ⟨absent, ends, h⟩ := separable_cons_cons.1 h
    refine separable_cons_cons.2 ⟨whole absent, ?_, h⟩
    cases first with
    | nil =>
      -- a line feed here and the pair that follows would have been cut one character sooner
      rintro ⟨⟩
      exact start ⟨_, rfl⟩
    | cons d first => simpa using ends

theorem separable_cut (cs : List Char) : Separable (cut cs) := by
  fun_induction cut cs with
  | case1 => simp [separable_singleton, pair]
  | case2 cs ih =>
    obtain ⟨first, rest, parts⟩ := List.exists_cons_of_ne_nil (cut_ne_nil cs)
    rw [parts] at ih ⊢
    exact separable_cons_cons.2 ⟨by simp [pair], by simp, ih⟩
  | case3 c cs unpaired ih =>
    obtain ⟨first, rest, parts⟩ := List.exists_cons_of_ne_nil (cut_ne_nil cs)
    have whole := intercalate_cut cs
    rw [parts] at ih whole ⊢
    apply ih.cons_first
    rw [whole]
    rintro ⟨tail, same⟩
    obtain ⟨rfl, rfl⟩ := List.cons.inj same
    exact unpaired _ rfl rfl

theorem cut_of_not_pair {cs : List Char} (absent : ¬ pair <:+: cs) : cut cs = [cs] := by
  induction cs with
  | nil => rfl
  | cons c cs ih =>
    rw [cut_cons_of_not_pair fun start => absent start.isInfix,
      ih fun later => absent (List.infix_cons later)]
    rfl

theorem cut_append_pair {part : List Char} (absent : ¬ pair <:+: part)
    (ends : part.getLast? ≠ some '\n') (cs : List Char) :
    cut (part ++ (pair ++ cs)) = part :: cut cs := by
  induction part with
  | nil => exact cut_pair cs
  | cons c part ih =>
    have start : ¬ pair <+: c :: (part ++ (pair ++ cs)) := by
      rintro ⟨tail, same⟩
      obtain ⟨rfl, second⟩ := List.cons.inj same
      cases part with
      | nil => exact ends rfl
      | cons d part =>
        obtain ⟨rfl, -⟩ := List.cons.inj second
        exact absent ⟨[], part, rfl⟩
    have later : part.getLast? ≠ some '\n' := by
      cases part with
      | nil => simp
      | cons d part => simpa using ends
    rw [List.cons_append, cut_cons_of_not_pair start,
      ih (fun inner => absent (List.infix_cons inner)) later]
    rfl

theorem Separable.cut_intercalate {parts : List (List Char)} (h : Separable parts)
    (present : parts ≠ []) : cut (pair.intercalate parts) = parts := by
  induction parts with
  | nil => contradiction
  | cons part rest ih =>
    cases rest with
    | nil =>
      rw [List.intercalate_singleton]
      exact cut_of_not_pair (separable_singleton.1 h)
    | cons next rest =>
      obtain ⟨absent, ends, h⟩ := separable_cons_cons.1 h
      rw [List.intercalate_cons_cons, List.append_assoc, cut_append_pair absent ends,
        ih h (List.cons_ne_nil _ _)]

theorem cut_intercalate_iff {parts : List (List Char)} (present : parts ≠ []) :
    cut (pair.intercalate parts) = parts ↔ Separable parts := by
  constructor
  · intro same
    rw [← same]
    exact separable_cut _
  · intro h
    exact h.cut_intercalate present

end TestScript.Script
