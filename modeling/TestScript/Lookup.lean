import TestScript.Lesson.Basic
import TestScript.Text

/-!
Lessons and tabs named by the user. A lesson is named by its position, counted from zero, or by its
title; what reads as a position is never a title, and of several titles that match, the first one
counts. A tab is named by its label. White space around a name is allowed.
-/

namespace TestScript

namespace Catalog

/-- The first lesson with this title, the case of ASCII letters aside. -/
def titled? (c : Catalog) (title : String) : Option LessonIndex :=
  (c.lessons.findIdx? fun lesson => Text.Caseless lesson.title title).map LessonIndex.mk

def find? (c : Catalog) (wanted : String) : Option LessonIndex :=
  match Text.position? wanted with
  | some position => c.index? position
  | none => c.titled? wanted

/-- White space around the query does not count, and is left out when the query is reported. -/
def find (c : Catalog) (query : String) : Except Fault LessonIndex :=
  match c.find? (Text.trim query) with
  | some index => .ok index
  | none => .error (.unknownLesson (Text.trim query))

theorem find_eq_ok_iff {c : Catalog} {query : String} {index : LessonIndex} :
    c.find query = .ok index ↔ c.find? (Text.trim query) = some index := by
  unfold find
  split
  · next found => simp [found]
  · next missed => simp [missed]

theorem find_eq_error_iff {c : Catalog} {query : String} {fault : Fault} :
    c.find query = .error fault ↔
      c.find? (Text.trim query) = none ∧ fault = .unknownLesson (Text.trim query) := by
  unfold find
  split
  · next found => simp [found]
  · next missed => simp [missed, eq_comm]

end Catalog

namespace Tab

def ofName (text : String) : Except Fault Tab :=
  match all.find? fun tab => Text.Caseless tab.label (Text.trim text) with
  | some tab => .ok tab
  | none => .error (.unknownTab text)

/-- No two labels have as many characters. -/
theorem eq_of_length_label {s t : Tab} (h : s.label.length = t.label.length) : s = t := by
  cases s <;> cases t <;> first | rfl | exact absurd h (by decide)

theorem ofName_eq_ok_iff {text : String} {t : Tab} :
    ofName text = .ok t ↔ Text.Caseless t.label (Text.trim text) := by
  unfold ofName
  split
  · next found h =>
    have named : Text.Caseless found.label (Text.trim text) := by simpa using List.find?_some h
    constructor
    · rintro ⟨⟩
      exact named
    · intro other
      rw [eq_of_length_label (named.length_eq.trans other.length_eq.symm)]
  · next h =>
    have unnamed := List.find?_eq_none.1 h t (mem_all t)
    simpa using unnamed

end Tab

end TestScript
