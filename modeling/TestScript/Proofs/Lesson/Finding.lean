import TestScript.Proofs.Lesson.Issuing
import TestScript.Proofs.Text.Casing
import TestScript.Proofs.Text.Positions

namespace TestScript.Catalog

variable {c : Catalog}

/-- The lesson at the position has the title, and no lesson before it has. -/
def FirstTitled (c : Catalog) (title : String) (position : Nat) : Prop :=
  ∃ h : position < c.lessons.length, Text.Caseless c.lessons[position].title title ∧
    ∀ earlier, (before : earlier < position) → ¬ Text.Caseless c.lessons[earlier].title title

theorem titled?_eq_some_iff {title : String} {index : LessonIndex} :
    c.titled? title = some index ↔ c.FirstTitled title index.position := by
  unfold titled?
  rw [Option.map_eq_some_iff]
  constructor
  · rintro ⟨position, found, rfl⟩
    simpa [FirstTitled] using List.findIdx?_eq_some_iff_getElem.1 found
  · intro first
    refine ⟨index.position, ?_, rfl⟩
    apply List.findIdx?_eq_some_iff_getElem.2
    simpa [FirstTitled] using first

theorem titled?_eq_none_iff {title : String} :
    c.titled? title = none ↔ ∀ lesson ∈ c.lessons, ¬ Text.Caseless lesson.title title := by
  simp [titled?]

theorem titled?_congr {s t : String} (same : Text.Caseless s t) : c.titled? s = c.titled? t := by
  simp only [titled?, Text.Caseless, same]

section Wanted

variable {wanted : String}

theorem find?_of_isPosition {n : Nat} (h : Text.IsPosition wanted n) :
    c.find? wanted = c.index? n := by
  rw [find?, Text.isPosition_iff.1 h]

theorem find?_of_not_isPosition (h : ∀ n, ¬ Text.IsPosition wanted n) :
    c.find? wanted = c.titled? wanted := by
  rw [find?, Text.forall_not_isPosition_iff.1 h]

theorem find?_congr {other : String} (same : Text.Caseless wanted other) :
    c.find? wanted = c.find? other := by
  rw [find?, find?, same.position?_eq, titled?_congr same]

end Wanted

section Query

variable {query : String}

theorem toOption_find (c : Catalog) (query : String) :
    (c.find query).toOption = c.find? (Text.trim query) := by
  unfold find
  cases c.find? (Text.trim query) <;> rfl

theorem find_of_isPosition {n : Nat} (h : Text.IsPosition (Text.trim query) n) :
    c.find query =
      if n < c.lessons.length then .ok ⟨n⟩ else .error (.unknownLesson (Text.trim query)) := by
  have found : c.find? (Text.trim query) = c.index? n := find?_of_isPosition h
  by_cases bound : n < c.lessons.length
  · have issued : c.index? n = some ⟨n⟩ := index?_eq_some_iff.2 ⟨bound, rfl⟩
    rw [if_pos bound, find_eq_ok_iff, found, issued]
  · have none : c.index? n = none := if_neg bound
    rw [if_neg bound, find_eq_error_iff, found]
    exact ⟨none, rfl⟩

theorem find_eq_ok_iff_of_title (h : ∀ n, ¬ Text.IsPosition (Text.trim query) n)
    {index : LessonIndex} :
    c.find query = .ok index ↔ c.FirstTitled (Text.trim query) index.position := by
  rw [find_eq_ok_iff, find?_of_not_isPosition h, titled?_eq_some_iff]

theorem find_eq_error_iff_of_title (h : ∀ n, ¬ Text.IsPosition (Text.trim query) n)
    {fault : Fault} :
    c.find query = .error fault ↔ fault = .unknownLesson (Text.trim query) ∧
      ∀ lesson ∈ c.lessons, ¬ Text.Caseless lesson.title (Text.trim query) := by
  rw [find_eq_error_iff, find?_of_not_isPosition h, titled?_eq_none_iff, and_comm]

theorem exists_lesson_of_find {index : LessonIndex} (h : c.find query = .ok index) :
    ∃ lesson, c.lesson? index = some lesson := by
  have bound : index.position < c.size := (Issues.byQuery query h).position_lt
  exact ⟨_, List.getElem?_eq_getElem bound⟩

theorem find_between_blanks {before after : String} (hb : Text.Blank before)
    (ha : Text.Blank after) : c.find (before ++ query ++ after) = c.find query := by
  unfold find
  rw [Text.trim_append_blanks hb ha]

theorem toOption_find_congr {other : String} (same : Text.Caseless query other) :
    (c.find other).toOption = (c.find query).toOption := by
  rw [toOption_find, toOption_find, find?_congr same.trim]

end Query

/-- A query is trimmed. If a position is left, the lesson there is found and no title is looked at;
if not, the first lesson with that title, the case of ASCII letters aside. -/
theorem find_exact (c : Catalog) (query : String) :
    let text := Text.trim query
    (Text.Trimmed text ∧
      ∃ before after, query = before ++ text ++ after ∧ Text.Blank before ∧ Text.Blank after) ∧
    (∀ n, Text.IsPosition text n →
      c.find query = if n < c.lessons.length then .ok ⟨n⟩ else .error (.unknownLesson text)) ∧
    ((∀ n, ¬ Text.IsPosition text n) →
      (∀ index, c.find query = .ok index ↔ c.FirstTitled text index.position) ∧
      ∀ fault, c.find query = .error fault ↔ fault = .unknownLesson text ∧
        ∀ lesson ∈ c.lessons, ¬ Text.Caseless lesson.title text) ∧
    (∀ index, c.find query = .ok index → ∃ lesson, c.lesson? index = some lesson) ∧
    (∀ before after, Text.Blank before → Text.Blank after →
      c.find (before ++ query ++ after) = c.find query) ∧
    ∀ other, Text.Caseless query other → (c.find other).toOption = (c.find query).toOption := by
  intro text
  refine ⟨⟨Text.trimmed_trim query, Text.exists_blank_ends query⟩, ?_, ?_, ?_, ?_, ?_⟩
  · intro n position
    exact find_of_isPosition position
  · intro title
    exact ⟨fun index => find_eq_ok_iff_of_title title, fun fault => find_eq_error_iff_of_title title⟩
  · intro index found
    exact exists_lesson_of_find found
  · intro before after hb ha
    exact find_between_blanks hb ha
  · intro other same
    exact toOption_find_congr same

/-- Titles that look like positions, or are padded, and one that comes twice. -/
def shelf : Catalog where
  lessons :=
    ["18446744073709551616", "+", "-1", "", "Anmelden", "aNMELDEN", " x", " +0000000000000000000007"].map
      fun title => ⟨title, []⟩
  lessons_ne_nil := by decide

theorem found_on_shelf :
    (Text.IsPosition (Text.trim "\u2003+0000000000000000000002\n") 2 ∧
      shelf.find "\u2003+0000000000000000000002\n" = .ok ⟨2⟩ ∧
      ∃ lesson, shelf.lesson? ⟨2⟩ = some lesson) ∧
    ((∀ n, ¬ Text.IsPosition (Text.trim "18446744073709551616 ") n) ∧
      shelf.find "18446744073709551616 " = .ok ⟨0⟩) ∧
    ((∀ n, ¬ Text.IsPosition (Text.trim "-") n) ∧
      shelf.find "-" = .error (.unknownLesson "-")) ∧
    (Text.Blank "\t" ∧ Text.Blank "\u3000" ∧
      shelf.find ("\t" ++ "Anmelden" ++ "\u3000") = shelf.find "Anmelden") ∧
    (Text.Caseless "Anmelden" "aNMELDEN" ∧
      (shelf.find "aNMELDEN").toOption = (shelf.find "Anmelden").toOption) := by
  refine ⟨?_, ?_, ?_, ?_, ?_⟩
  · obtain ⟨_, atPosition, _, valid, _⟩ := find_exact shelf "\u2003+0000000000000000000002\n"
    have position : Text.IsPosition (Text.trim "\u2003+0000000000000000000002\n") 2 := by decide
    have found := (atPosition 2 position).trans (if_pos (by decide))
    exact ⟨position, found, valid _ found⟩
  · obtain ⟨_, _, byTitle, _⟩ := find_exact shelf "18446744073709551616 "
    have large : ∀ n, ¬ Text.IsPosition (Text.trim "18446744073709551616 ") n :=
      Text.forall_not_isPosition_iff.2 (by decide)
    have first : shelf.FirstTitled (Text.trim "18446744073709551616 ") 0 :=
      ⟨by decide, Text.caseless_iff.2 (by decide), by simp⟩
    exact ⟨large, ((byTitle large).1 _).2 first⟩
  · obtain ⟨_, _, byTitle, _⟩ := find_exact shelf "-"
    have dash : ∀ n, ¬ Text.IsPosition (Text.trim "-") n :=
      Text.forall_not_isPosition_iff.2 (by decide)
    have missing : ∀ lesson ∈ shelf.lessons, ¬ Text.Caseless lesson.title (Text.trim "-") := by
      simp only [Text.caseless_iff]
      decide
    exact ⟨dash, ((byTitle dash).2 _).2 ⟨by decide, missing⟩⟩
  · obtain ⟨_, _, _, _, blanks, _⟩ := find_exact shelf "Anmelden"
    have before : Text.Blank "\t" := by decide
    have after : Text.Blank "\u3000" := by decide
    exact ⟨before, after, blanks _ _ before after⟩
  · obtain ⟨_, _, _, _, _, cases⟩ := find_exact shelf "Anmelden"
    have same : Text.Caseless "Anmelden" "aNMELDEN" := Text.caseless_iff.2 (by decide)
    exact ⟨same, cases _ same⟩

section Own

variable {i : Nat} (h : i < c.lessons.length)

/-- A title with white space around it is longer than what is looked for. -/
theorem firstTitled_own_iff :
    c.FirstTitled (Text.trim c.lessons[i].title) i ↔
      Text.Trimmed c.lessons[i].title ∧
      ¬ ∃ j, ∃ before : j < i, Text.Caseless c.lessons[j].title c.lessons[i].title := by
  constructor
  · rintro ⟨_, same, first⟩
    have trimmed : Text.Trimmed c.lessons[i].title :=
      Text.trimmed_of_length_trim same.length_eq.symm
    rw [Text.trim_eq_self_iff.2 trimmed] at first
    refine ⟨trimmed, ?_⟩
    rintro ⟨j, before, repeated⟩
    exact first j before repeated
  · rintro ⟨trimmed, new⟩
    rw [Text.trim_eq_self_iff.2 trimmed]
    refine ⟨h, rfl, ?_⟩
    intro j before repeated
    exact new ⟨j, before, repeated⟩

include h in
theorem find_own_iff_of_isPosition {n : Nat}
    (position : Text.IsPosition (Text.trim c.lessons[i].title) n) :
    c.find c.lessons[i].title = .ok ⟨i⟩ ↔ n = i := by
  rw [find_of_isPosition position]
  constructor
  · split
    · rintro ⟨⟩
      rfl
    · rintro ⟨⟩
  · rintro rfl
    exact if_pos h

end Own

/-- A lesson is found by its own title if the title is the position of the lesson, or if it is no
position, has no white space around it and is the first of its kind. These are the only ways to miss
it. -/
theorem find_own_title (c : Catalog) (i : Nat) (h : i < c.lessons.length) :
    let title := c.lessons[i].title
    let text := Text.trim title
    let repeated := ∃ j, ∃ before : j < i, Text.Caseless c.lessons[j].title title
    (c.find title = .ok ⟨i⟩ ↔
      Text.IsPosition text i ∨
      (∀ n, ¬ Text.IsPosition text n) ∧ Text.Trimmed title ∧ ¬ repeated) ∧
    (c.find title ≠ .ok ⟨i⟩ ↔
      (∃ n, n ≠ i ∧ Text.IsPosition text n) ∨
      (∀ n, ¬ Text.IsPosition text n) ∧ (¬ Text.Trimmed title ∨ repeated)) := by
  intro title text repeated
  by_cases position : ∃ n, Text.IsPosition text n
  · obtain ⟨n, position⟩ := position
    have found : c.find title = .ok ⟨i⟩ ↔ n = i := find_own_iff_of_isPosition h position
    have no_title : ¬ ∀ m, ¬ Text.IsPosition text m := fun none => none n position
    rw [ne_eq, found, or_iff_left (fun h => no_title h.1), or_iff_left (fun h => no_title h.1)]
    refine ⟨⟨?_, position.unique⟩, ?_, ?_⟩
    · rintro rfl
      exact position
    · intro differ
      exact ⟨n, differ, position⟩
    · rintro ⟨m, differ, other⟩ rfl
      exact differ (other.unique position)
  · have title_only : ∀ n, ¬ Text.IsPosition text n := not_exists.1 position
    have found : c.find title = .ok ⟨i⟩ ↔ Text.Trimmed title ∧ ¬ repeated :=
      (find_eq_ok_iff_of_title title_only).trans (firstTitled_own_iff h)
    have no_other : ¬ ∃ n, n ≠ i ∧ Text.IsPosition text n :=
      fun ⟨n, _, position⟩ => title_only n position
    rw [ne_eq, found, or_iff_right (title_only i), or_iff_right no_other,
      and_iff_right title_only, and_iff_right title_only, not_and_or, not_not]
    exact ⟨Iff.rfl, Iff.rfl⟩

theorem own_titles_on_shelf :
    (1 < shelf.lessons.length ∧ shelf.find shelf.lessons[1].title = .ok ⟨1⟩) ∧
    (5 < shelf.lessons.length ∧ shelf.find shelf.lessons[5].title ≠ .ok ⟨5⟩) ∧
    (7 < shelf.lessons.length ∧ shelf.find shelf.lessons[7].title = .ok ⟨7⟩) := by
  refine ⟨⟨by decide, ?_⟩, ⟨by decide, ?_⟩, ⟨by decide, ?_⟩⟩
  · have plus : ∀ n, ¬ Text.IsPosition (Text.trim shelf.lessons[1].title) n :=
      Text.forall_not_isPosition_iff.2 (by decide)
    have differ : ¬ Text.Caseless shelf.lessons[0].title shelf.lessons[1].title :=
      mt Text.caseless_iff.1 (by decide)
    refine (find_own_title shelf 1 (by decide)).1.2 (.inr ⟨plus, by decide, ?_⟩)
    rintro ⟨j, before, repeated⟩
    obtain rfl : j = 0 := by omega
    exact differ repeated
  · have word : ∀ n, ¬ Text.IsPosition (Text.trim shelf.lessons[5].title) n :=
      Text.forall_not_isPosition_iff.2 (by decide)
    have repeated : Text.Caseless shelf.lessons[4].title shelf.lessons[5].title :=
      Text.caseless_iff.2 (by decide)
    exact (find_own_title shelf 5 (by decide)).2.2 (.inr ⟨word, .inr ⟨4, by decide, repeated⟩⟩)
  · have position : Text.IsPosition (Text.trim shelf.lessons[7].title) 7 := by decide
    exact (find_own_title shelf 7 (by decide)).1.2 (.inl position)

end TestScript.Catalog
