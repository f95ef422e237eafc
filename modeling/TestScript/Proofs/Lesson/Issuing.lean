import TestScript.Lookup

namespace TestScript.Catalog

variable {c : Catalog} {index : LessonIndex}

/-- The ways to get an index from a catalog. -/
inductive Issues (c : Catalog) (index : LessonIndex) : Prop where
  | byPosition (position : Nat) (h : c.index? position = some index)
  | byQuery (query : String) (h : c.find query = .ok index)
  | byListing (lesson : Lesson) (h : (index, lesson) ∈ c.entries)

theorem position_lt_of_titled? {title : String} (h : c.titled? title = some index) :
    index.position < c.size := by
  obtain ⟨position, found, rfl⟩ := Option.map_eq_some_iff.1 h
  obtain ⟨bound, _⟩ := List.findIdx?_eq_some_iff_getElem.1 found
  exact bound

theorem position_lt_of_find? {wanted : String} (h : c.find? wanted = some index) :
    index.position < c.size := by
  unfold find? at h
  split at h
  · obtain ⟨bound, rfl⟩ := index?_eq_some_iff.1 h
    exact bound
  · exact position_lt_of_titled? h

theorem position_lt_of_mem_entries {lesson : Lesson} (h : (index, lesson) ∈ c.entries) :
    index.position < c.size := by
  obtain ⟨⟨_, position⟩, listed, same⟩ := List.mem_map.1 h
  have bound : position < c.size := by
    simpa [size] using List.snd_lt_of_mem_zipIdx listed
  rw [← (Prod.mk.inj same).1]
  exact bound

theorem Issues.position_lt (h : c.Issues index) : index.position < c.size := by
  cases h with
  | byPosition position h =>
    obtain ⟨bound, rfl⟩ := index?_eq_some_iff.1 h
    exact bound
  | byQuery query h => exact position_lt_of_find? (find_eq_ok_iff.1 h)
  | byListing lesson h => exact position_lt_of_mem_entries h

end TestScript.Catalog
