import TestScript.Fault
import TestScript.Step.Basic

namespace TestScript

structure Lesson where
  title : String
  steps : List Step
  deriving DecidableEq, Repr

/-- The place of a lesson in the catalog that gave out the index. Another catalog may have no lesson
there. -/
structure LessonIndex where
  position : Nat
  deriving DecidableEq, Repr

/-- The place of the first lesson, which every catalog has. -/
def LessonIndex.first : LessonIndex := ⟨0⟩

structure Catalog where
  lessons : List Lesson
  lessons_ne_nil : lessons ≠ []
  deriving DecidableEq, Repr

namespace Catalog

def ofLessons (lessons : List Lesson) : Except Fault Catalog :=
  if h : lessons = [] then .error .emptyCatalog else .ok ⟨lessons, h⟩

def size (c : Catalog) : Nat := c.lessons.length

def index? (c : Catalog) (position : Nat) : Option LessonIndex :=
  if position < c.size then some ⟨position⟩ else none

def lesson? (c : Catalog) (index : LessonIndex) : Option Lesson :=
  c.lessons[index.position]?

/-- The lessons with their places. -/
def entries (c : Catalog) : List (LessonIndex × Lesson) :=
  c.lessons.zipIdx.map fun (lesson, position) => (⟨position⟩, lesson)

theorem size_pos (c : Catalog) : 0 < c.size :=
  List.length_pos_iff.2 c.lessons_ne_nil

theorem index?_eq_some_iff {c : Catalog} {position : Nat} {index : LessonIndex} :
    c.index? position = some index ↔ position < c.size ∧ index = ⟨position⟩ := by
  unfold index?
  split
  · next h => simp [h, eq_comm]
  · next h => simp [h]

theorem lesson?_eq_none_iff {c : Catalog} {index : LessonIndex} :
    c.lesson? index = none ↔ c.size ≤ index.position := by
  simp [lesson?, size]

end Catalog

end TestScript
