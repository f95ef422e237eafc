import TestScript.Page.Html

namespace TestScript.Html

theorem unescaped_cons_of_ne {c : Char} (h : c ≠ '&') (rest : List Char) :
    unescaped (c :: rest) = c :: unescaped rest := by
  simp [unescaped, h]

theorem unescaped_escapedInText_append (c : Char) (rest : List Char) :
    unescaped (escapedInText c ++ rest) = c :: unescaped rest := by
  unfold escapedInText
  split
  · next h => exact h ▸ rfl
  · next other =>
    split
    · next h => exact h ▸ rfl
    · split
      · next h => exact h ▸ rfl
      · exact unescaped_cons_of_ne other rest

theorem unescaped_escapedInValue_append (c : Char) (rest : List Char) :
    unescaped (escapedInValue c ++ rest) = c :: unescaped rest := by
  unfold escapedInValue
  split
  · next h => exact h ▸ rfl
  · exact unescaped_escapedInText_append c rest

/-- Texts and values differ only in how a character is escaped. -/
theorem unescaped_flatMap {escaped : Char → List Char}
    (h : ∀ c rest, unescaped (escaped c ++ rest) = c :: unescaped rest) (cs : List Char) :
    unescaped (cs.flatMap escaped) = cs := by
  induction cs with
  | nil => rfl
  | cons c cs ih => rw [List.flatMap_cons, h, ih]

@[simp] theorem unescape_escapeText (s : String) : unescape (escapeText s) = s := by
  rw [unescape, escapeText, String.toList_ofList, unescaped_flatMap unescaped_escapedInText_append,
    String.ofList_toList]

@[simp] theorem unescape_escapeValue (s : String) : unescape (escapeValue s) = s := by
  rw [unescape, escapeValue, String.toList_ofList,
    unescaped_flatMap unescaped_escapedInValue_append, String.ofList_toList]

theorem lt_not_mem_escapedInText (c : Char) : '<' ∉ escapedInText c := by
  unfold escapedInText
  split
  · decide
  · split
    · decide
    · next other =>
      split
      · decide
      · simpa using Ne.symm other

theorem quote_not_mem_escapedInValue (c : Char) : '"' ∉ escapedInValue c := by
  unfold escapedInValue escapedInText
  split
  · decide
  · next other =>
    split
    · decide
    · split
      · decide
      · split
        · decide
        · simpa using Ne.symm other

theorem lt_not_mem_escapeText (s : String) : '<' ∉ (escapeText s).toList := by
  simp [escapeText, lt_not_mem_escapedInText]

theorem quote_not_mem_escapeValue (s : String) : '"' ∉ (escapeValue s).toList := by
  simp [escapeValue, quote_not_mem_escapedInValue]

end TestScript.Html
