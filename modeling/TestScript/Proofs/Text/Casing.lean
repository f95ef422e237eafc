import TestScript.Proofs.Text.Trimming
import TestScript.Text

namespace TestScript.Text

/-- A character that changes is a capital and becomes a small letter. -/
theorem toLower_cases (c : Char) :
    c.toLower = c ∨ 65 ≤ c.toNat ∧ c.toNat ≤ 90 ∧ c.toLower.toNat = c.toNat + 32 := by
  unfold Char.toLower
  split
  · next capital =>
    obtain ⟨first, last⟩ := capital
    rw [ge_iff_le, UInt32.le_iff_toNat_le] at first
    rw [UInt32.le_iff_toNat_le] at last
    have small : (c.val + ('a'.val - 'A'.val)).toNat = c.toNat + 32 := by
      rw [UInt32.toNat_add]
      exact Nat.mod_eq_of_lt (Nat.lt_of_le_of_lt (Nat.add_le_add_right last 32) (by decide))
    exact .inr ⟨first, last, small⟩
  · exact .inl rfl

theorem isBlank_eq_false_of_letter {c : Char} (first : 65 ≤ c.toNat) (last : c.toNat ≤ 122) :
    isBlank c = false := by
  simp [isBlank, blankRanges]
  omega

theorem isBlank_toLower (c : Char) : isBlank c.toLower = isBlank c := by
  rcases toLower_cases c with same | ⟨first, last, small⟩
  · rw [same]
  · have capital : isBlank c = false := isBlank_eq_false_of_letter first (by omega)
    rw [capital]
    exact isBlank_eq_false_of_letter (by omega) (by omega)

theorem isDigit_toLower (c : Char) : c.toLower.isDigit = c.isDigit := by
  have nine : '9'.toNat = 57 := rfl
  rcases toLower_cases c with same | ⟨first, last, small⟩
  · rw [same]
  · rw [Bool.eq_iff_iff, Char.isDigit_iff_toNat, Char.isDigit_iff_toNat]
    omega

theorem toLower_of_isDigit {c : Char} (h : c.isDigit = true) : c.toLower = c := by
  have nine : '9'.toNat = 57 := rfl
  have last := (Char.isDigit_iff_toNat.1 h).2
  rcases toLower_cases c with same | ⟨first, _, _⟩
  · exact same
  · omega

theorem toLower_eq_plus_iff {c : Char} : c.toLower = '+' ↔ c = '+' := by
  rcases toLower_cases c with same | ⟨first, last, small⟩
  · rw [same]
  · have plus : '+'.toNat = 43 := rfl
    constructor
    · intro h
      rw [h] at small
      omega
    · rintro rfl
      omega

theorem trim_lower (s : String) : trim (lower s) = lower (trim s) := by
  have same : isBlank ∘ Char.toLower = isBlank := funext isBlank_toLower
  apply String.toList_injective
  simp only [toList_trim, toList_lower, withoutBlankEnd, List.dropWhile_map, ← List.map_reverse,
    same]

theorem unsigned_map_toLower (cs : List Char) :
    unsigned (cs.map Char.toLower) = (unsigned cs).map Char.toLower := by
  cases cs with
  | nil => rfl
  | cons c cs =>
    by_cases plus : c = '+'
    · subst plus
      rfl
    · have kept : c.toLower ≠ '+' := mt toLower_eq_plus_iff.1 plus
      simp [unsigned, plus, kept]

theorem position?_lower (s : String) : position? (lower s) = position? s := by
  have alike : ((unsigned s.toList).map Char.toLower).all Char.isDigit =
      (unsigned s.toList).all Char.isDigit := by
    rw [List.all_map]
    exact congrArg _ (funext isDigit_toLower)
  simp only [position?, toList_lower, unsigned_map_toLower]
  by_cases digits : (unsigned s.toList).all Char.isDigit = true
  · have same : (unsigned s.toList).map Char.toLower = unsigned s.toList := by
      calc (unsigned s.toList).map Char.toLower
          = (unsigned s.toList).map id :=
            List.map_congr_left fun c h => toLower_of_isDigit (List.all_eq_true.1 digits c h)
        _ = unsigned s.toList := List.map_id _
    rw [same]
  · simp [alike, digits]

theorem Caseless.trim {s t : String} (h : Caseless s t) : Caseless (trim s) (trim t) := by
  rw [Caseless, ← trim_lower, ← trim_lower, h]

theorem Caseless.position?_eq {s t : String} (h : Caseless s t) : position? s = position? t := by
  rw [← position?_lower s, h, position?_lower]

end TestScript.Text
