import TestScript.Text

namespace TestScript.Text

/-- An optional plus sign before digits that tell the number, which is below the limit. -/
def IsPosition (text : String) (n : Nat) : Prop :=
  ∃ sign digits : String, text = sign ++ digits ∧ (sign = "" ∨ sign = "+") ∧ digits ≠ "" ∧
    (∀ c ∈ digits.toList, c.isDigit = true) ∧ Nat.ofDigitChars 10 digits.toList 0 = n ∧
    n < positionLimit

theorem exists_sign (s : String) :
    ∃ sign : String, (sign = "" ∨ sign = "+") ∧ s = sign ++ String.ofList (unsigned s.toList) := by
  unfold unsigned
  split
  · next digits signed =>
    refine ⟨"+", .inr rfl, ?_⟩
    apply String.toList_injective
    simp [signed]
  · exact ⟨"", .inl rfl, by simp⟩

theorem unsigned_append {sign digits : String} (hs : sign = "" ∨ sign = "+")
    (hd : ∀ c ∈ digits.toList, c.isDigit = true) :
    unsigned (sign ++ digits).toList = digits.toList := by
  rw [String.toList_append]
  rcases hs with rfl | rfl
  · change unsigned digits.toList = digits.toList
    unfold unsigned
    split
    · next rest signed =>
      -- the first digit would be a plus sign
      have digit := hd '+' (by simp [signed])
      contradiction
    · rfl
  · rfl

theorem position?_eq_some_iff {s : String} {n : Nat} :
    position? s = some n ↔
      unsigned s.toList ≠ [] ∧ (∀ c ∈ unsigned s.toList, c.isDigit = true) ∧
      Nat.ofDigitChars 10 (unsigned s.toList) 0 = n ∧ n < positionLimit := by
  simp only [position?, Option.ite_none_right_eq_some, List.all_eq_true, Option.some.injEq]
  constructor
  · rintro ⟨⟨present, digits, bound⟩, rfl⟩
    exact ⟨present, digits, rfl, bound⟩
  · rintro ⟨present, digits, rfl, bound⟩
    exact ⟨⟨present, digits, bound⟩, rfl⟩

theorem isPosition_iff {s : String} {n : Nat} : IsPosition s n ↔ position? s = some n := by
  rw [position?_eq_some_iff]
  constructor
  · rintro ⟨sign, digits, rfl, signed, present, all, value, bound⟩
    rw [unsigned_append signed all]
    exact ⟨by simpa using present, all, value, bound⟩
  · rintro ⟨present, all, value, bound⟩
    obtain ⟨sign, signed, split⟩ := exists_sign s
    refine ⟨sign, _, split, signed, by simpa using present, ?_, ?_, bound⟩
    · simpa using all
    · simpa using value

theorem forall_not_isPosition_iff {s : String} :
    (∀ n, ¬ IsPosition s n) ↔ position? s = none := by
  simp only [isPosition_iff, ← Option.eq_none_iff_forall_ne_some]

theorem IsPosition.unique {s : String} {m n : Nat} (hm : IsPosition s m) (hn : IsPosition s n) :
    m = n := by
  rw [isPosition_iff] at hm hn
  exact Option.some.inj (hm.symm.trans hn)

instance (s : String) (n : Nat) : Decidable (IsPosition s n) := decidable_of_iff' _ isPosition_iff

end TestScript.Text
