import Mathlib.Data.List.DropRight
import Mathlib.Data.List.TakeWhile
import TestScript.Text

/-!
Texts up to the white space at their end. Texts that differ only there differ only there in their
first characters too, and in what follows these; what fills a text up to a width is lost with it. A
text without the white space at both its ends is the only one that has none there and makes the text
again with white space around it.
-/

namespace TestScript.Text

theorem withoutBlankEnd_append {cs tail : List Char} (blank : ∀ c ∈ tail, isBlank c = true) :
    withoutBlankEnd (cs ++ tail) = withoutBlankEnd cs := by
  have skipped : ∀ c ∈ tail.reverse, isBlank c = true :=
    fun c h => blank c (List.mem_reverse.1 h)
  rw [withoutBlankEnd, List.reverse_append, List.dropWhile_append_of_pos skipped, withoutBlankEnd]

theorem exists_blank_end (cs : List Char) :
    ∃ tail, (∀ c ∈ tail, isBlank c = true) ∧ withoutBlankEnd cs ++ tail = cs :=
  ⟨cs.rtakeWhile isBlank, fun _ => List.mem_rtakeWhile_imp, List.rdropWhile_append_rtakeWhile⟩

theorem withoutBlankEnd_prefix (cs : List Char) : withoutBlankEnd cs <+: cs :=
  List.rdropWhile_prefix isBlank cs

@[simp] theorem withoutBlankEnd_withoutBlankEnd (cs : List Char) :
    withoutBlankEnd (withoutBlankEnd cs) = withoutBlankEnd cs :=
  List.rdropWhile_idempotent isBlank cs

theorem not_isBlank_of_mem_getLast? {cs : List Char} {c : Char}
    (last : c ∈ (withoutBlankEnd cs).getLast?) : isBlank c = false := by
  obtain ⟨present, rfl⟩ := List.mem_getLast?_eq_getLast last
  exact Bool.eq_false_iff.2 (List.rdropWhile_last_not isBlank cs present)

theorem withoutBlankEnd_rightpad (n : Nat) (cs : List Char) :
    withoutBlankEnd (cs.rightpad n ' ') = withoutBlankEnd cs := by
  have spaces : ∀ c ∈ List.replicate (n - cs.length) ' ', isBlank c = true := by
    intro c h
    rw [List.eq_of_mem_replicate h]
    decide
  exact withoutBlankEnd_append spaces

theorem withoutBlankEnd_take (cs : List Char) (n : Nat) :
    withoutBlankEnd ((withoutBlankEnd cs).take n) = withoutBlankEnd (cs.take n) := by
  obtain ⟨tail, blank, split⟩ := exists_blank_end cs
  have cut : cs.take n =
      (withoutBlankEnd cs).take n ++ tail.take (n - (withoutBlankEnd cs).length) := by
    rw [← List.take_append, split]
  rw [cut, withoutBlankEnd_append fun c h => blank c (List.mem_of_mem_take h)]

theorem withoutBlankEnd_drop (cs : List Char) (n : Nat) :
    withoutBlankEnd ((withoutBlankEnd cs).drop n) = withoutBlankEnd (cs.drop n) := by
  obtain ⟨tail, blank, split⟩ := exists_blank_end cs
  have cut : cs.drop n =
      (withoutBlankEnd cs).drop n ++ tail.drop (n - (withoutBlankEnd cs).length) := by
    rw [← List.drop_append, split]
  rw [cut, withoutBlankEnd_append fun c h => blank c (List.mem_of_mem_drop h)]

section Alike

variable {cs ds : List Char} (alike : withoutBlankEnd cs = withoutBlankEnd ds)
include alike

theorem take_alike (n : Nat) : withoutBlankEnd (cs.take n) = withoutBlankEnd (ds.take n) := by
  rw [← withoutBlankEnd_take cs, alike, withoutBlankEnd_take]

theorem drop_alike (n : Nat) : withoutBlankEnd (cs.drop n) = withoutBlankEnd (ds.drop n) := by
  rw [← withoutBlankEnd_drop cs, alike, withoutBlankEnd_drop]

theorem rightpad_alike (n : Nat) :
    withoutBlankEnd (cs.rightpad n ' ') = withoutBlankEnd (ds.rightpad n ' ') := by
  rw [withoutBlankEnd_rightpad, withoutBlankEnd_rightpad, alike]

end Alike

/-- Nothing but white space. -/
def Blank (s : String) : Prop := ∀ c ∈ s.toList, isBlank c = true

/-- No white space at either end. -/
def Trimmed (s : String) : Prop :=
  (∀ c ∈ s.toList.head?, isBlank c = false) ∧ ∀ c ∈ s.toList.getLast?, isBlank c = false

instance (s : String) : Decidable (Blank s) := List.decidableBAll _ _

instance (s : String) : Decidable (Trimmed s) :=
  @instDecidableAnd _ _ (Option.decidableForallMem _) (Option.decidableForallMem _)

theorem Blank.append {s t : String} (hs : Blank s) (ht : Blank t) : Blank (s ++ t) := by
  intro c h
  rw [String.toList_append, List.mem_append] at h
  exact h.elim (hs c) (ht c)

theorem withoutBlankEnd_eq_self {cs : List Char} (h : ∀ c ∈ cs.getLast?, isBlank c = false) :
    withoutBlankEnd cs = cs := by
  apply List.rdropWhile_eq_self_iff.2
  intro present
  simpa using h _ (List.getLast?_eq_some_getLast present)

theorem dropWhile_isBlank_eq_self {cs : List Char} (h : ∀ c ∈ cs.head?, isBlank c = false) :
    cs.dropWhile isBlank = cs := by
  cases cs with
  | nil => rfl
  | cons c cs => exact List.dropWhile_cons_of_neg (by simpa using h)

theorem trimmed_trim (s : String) : Trimmed (trim s) := by
  constructor
  · intro c first
    obtain ⟨tail, _, split⟩ := exists_blank_end (s.toList.dropWhile isBlank)
    have first_kept : (s.toList.dropWhile isBlank).head? = some c := by
      rw [toList_trim] at first
      rw [← split, List.head?_append, first, Option.some_or]
    simpa [first_kept] using List.head?_dropWhile_not isBlank s.toList
  · intro c last
    rw [toList_trim] at last
    exact not_isBlank_of_mem_getLast? last

theorem exists_blank_ends (s : String) :
    ∃ before after, s = before ++ trim s ++ after ∧ Blank before ∧ Blank after := by
  obtain ⟨tail, blank, split⟩ := exists_blank_end (s.toList.dropWhile isBlank)
  refine ⟨String.ofList (s.toList.takeWhile isBlank), String.ofList tail, ?_, ?_, ?_⟩
  · apply String.toList_injective
    simp [List.append_assoc, split]
  · intro c h
    rw [String.toList_ofList] at h
    exact List.mem_takeWhile_imp h
  · simpa [Blank] using blank

theorem trim_between {before text after : String} (hb : Blank before) (ha : Blank after)
    (trimmed : Trimmed text) : trim (before ++ text ++ after) = text := by
  apply String.toList_injective
  rw [toList_trim, String.toList_append, String.toList_append, List.append_assoc,
    List.dropWhile_append_of_pos hb]
  by_cases empty : text = ""
  · have gone : after.toList.dropWhile isBlank = [] := List.dropWhile_eq_nil_iff.2 ha
    simp [empty, gone, withoutBlankEnd]
  · have first : ∀ c ∈ (text.toList ++ after.toList).head?, isBlank c = false := by
      rw [List.head?_append_of_ne_nil _ (by simpa using empty)]
      exact trimmed.1
    rw [dropWhile_isBlank_eq_self first, withoutBlankEnd_append ha,
      withoutBlankEnd_eq_self trimmed.2]

theorem trim_append_blanks {before after : String} (hb : Blank before) (ha : Blank after)
    (s : String) : trim (before ++ s ++ after) = trim s := by
  obtain ⟨first, last, split, hf, hl⟩ := exists_blank_ends s
  have whole : before ++ s ++ after = (before ++ first) ++ trim s ++ (last ++ after) := by
    conv_lhs => rw [split]
    simp only [String.append_assoc]
  rw [whole]
  exact trim_between (hb.append hf) (hl.append ha) (trimmed_trim s)

theorem trim_eq_self_iff {s : String} : trim s = s ↔ Trimmed s := by
  constructor
  · intro same
    rw [← same]
    exact trimmed_trim s
  · intro trimmed
    have none : Blank "" := by simp [Blank]
    simpa using trim_between none none trimmed

/-- Trimming that takes no character away takes nothing away. -/
theorem trimmed_of_length_trim {s : String} (same : (trim s).length = s.length) : Trimmed s := by
  obtain ⟨before, after, split, _, _⟩ := exists_blank_ends s
  have lengths := congrArg String.length split
  simp only [String.length_append] at lengths
  have hb : before = "" := by
    rw [← String.length_eq_zero_iff]
    omega
  have ha : after = "" := by
    rw [← String.length_eq_zero_iff]
    omega
  apply trim_eq_self_iff.1
  simpa [hb, ha] using split.symm

end TestScript.Text
