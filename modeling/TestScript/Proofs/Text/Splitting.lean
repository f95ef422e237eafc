namespace TestScript.Text

theorem length_splitOn (c : Char) (cs : List Char) : (cs.splitOn c).length = cs.count c + 1 := by
  induction cs with
  | nil => rfl
  | cons d cs ih =>
    rw [List.splitOn_cons_eq_if_modifyHead, List.count_cons]
    by_cases h : d = c
    · simp [h, ih]
    · simp [h, ih]

theorem not_mem_of_mem_splitOn {c : Char} {cs part : List Char} (h : part ∈ cs.splitOn c) :
    c ∉ part := by
  induction cs generalizing part with
  | nil =>
    rw [List.splitOn_nil, List.mem_singleton] at h
    simp [h]
  | cons d cs ih =>
    rw [List.splitOn_cons_eq_if_modifyHead] at h
    split at h
    · -- the character cuts, and an empty part comes before the rest
      rcases List.mem_cons.1 h with rfl | later
      · exact List.not_mem_nil
      · exact ih later
    · next differ =>
      obtain ⟨first, rest, cut⟩ := List.exists_cons_of_ne_nil (List.splitOn_ne_nil c cs)
      rw [cut] at ih h
      rcases List.mem_cons.1 h with rfl | later
      · have absent : c ∉ first := ih List.mem_cons_self
        have other : c ≠ d := fun same => differ (by simp [same])
        simp [absent, other]
      · exact ih (List.mem_cons_of_mem _ later)

theorem map_ofList_splitOn_intercalate {c : Char} {texts : List String} (present : texts ≠ [])
    (absent : ∀ text ∈ texts, c ∉ text.toList) :
    (((String.singleton c).intercalate texts).toList.splitOn c).map String.ofList = texts := by
  have chars : ((String.singleton c).intercalate texts).toList =
      [c].intercalate (texts.map String.toList) := by
    rw [String.toList_intercalate, String.toList_singleton]
  have cut : ([c].intercalate (texts.map String.toList)).splitOn c = texts.map String.toList := by
    apply List.splitOn_intercalate c
    · exact List.forall_mem_map.2 absent
    · simpa using present
  rw [chars, cut, List.map_map]
  exact List.map_id'' (fun text => String.ofList_toList) texts

theorem mem_of_mem_intercalate {c : Char} {sep : List Char} {parts : List (List Char)}
    (h : c ∈ sep.intercalate parts) : c ∈ sep ∨ ∃ part ∈ parts, c ∈ part := by
  induction parts with
  | nil => simp at h
  | cons part parts ih =>
    cases parts with
    | nil => exact .inr ⟨part, List.mem_cons_self, by simpa using h⟩
    | cons next parts =>
      rw [List.intercalate_cons_cons, List.mem_append, List.mem_append] at h
      rcases h with (first | between) | later
      · exact .inr ⟨part, List.mem_cons_self, first⟩
      · exact .inl between
      · exact (ih later).imp_right fun ⟨other, mem, h⟩ => ⟨other, List.mem_cons_of_mem _ mem, h⟩

end TestScript.Text
