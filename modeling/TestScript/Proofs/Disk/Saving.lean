import TestScript.Disk.Saving

namespace TestScript

namespace Disk

/-- The disks hold the same files. Their folders may differ. -/
def SameFiles (d e : Disk) : Prop := ∀ location, e.text? location = d.text? location

theorem SameFiles.refl (d : Disk) : SameFiles d d := fun _ => rfl

theorem SameFiles.trans {d e f : Disk} (first : SameFiles d e) (second : SameFiles e f) :
    SameFiles d f :=
  fun location => (second location).trans (first location)

theorem find?_put_of_ne (d : Disk) {location other : Location} (h : other ≠ location)
    (entry : Entry) : find? (d.put location entry) other = d.find? other := by
  simp [find?, put, h]

theorem sameFiles_put_folder {d : Disk} {location : Location} (free : d.find? location = none) :
    SameFiles d (d.put location .folder) := by
  intro other
  by_cases same : other = location
  · subst same
    have present : other ≠ [] := by
      rintro rfl
      simp [find?] at free
    rw [text?, text?, free]
    simp [find?, put, present]
  · rw [text?, text?, find?_put_of_ne d same]

theorem sameFiles_makeFolder {d made : Disk} {origin : Location} {above : List String}
    {name : String} (h : d.makeFolder origin above name = .ok made) : SameFiles d made := by
  obtain ⟨folder, _, h⟩ := Except.bind_eq_ok_iff.1 h
  obtain ⟨there, _, h⟩ := Except.bind_eq_ok_iff.1 h
  split at h
  · cases h
  · next free =>
    cases h
    exact sameFiles_put_folder free

theorem sameFiles_makeFolders (d : Disk) (origin : Location) (names : List String) :
    SameFiles d (d.makeFolders origin names).2 := by
  fun_induction makeFolders d origin names with
  | case1 => exact .refl _
  | case2 name above made h => exact sameFiles_makeFolder h
  | case3 name above _ fault left h ih =>
    rw [h] at ih
    exact ih
  | case4 name above _ _ left h made last ih =>
    rw [h] at ih
    exact ih.trans (sameFiles_makeFolder last)
  | case5 name above _ _ left h fault _ ih =>
    rw [h] at ih
    exact ih
  | case6 => exact .refl _

theorem sameFiles_makeParents (d : Disk) (here : Location) (path : String) :
    SameFiles d (d.makeParents here path).2 := by
  unfold makeParents
  split
  · exact .refl _
  · split
    · exact .refl _
    · exact sameFiles_makeFolders _ _ _

section Put

variable {d : Disk} {location : Location} {text : String}
  (free : d.find? location ≠ some .folder)
include free

theorem enter_put_file {here there : Location} {name : String} (h : d.enter here name = .ok there) :
    (d.put location (.file text)).enter here name = .ok there := by
  obtain ⟨found, reached, h⟩ := Except.bind_eq_ok_iff.1 h
  refine Except.bind_eq_ok_iff.2 ⟨found, reached, ?_⟩
  split at h
  · cases h
  · cases h
  · next folder =>
    have other : found ≠ location := by
      rintro rfl
      exact free folder
    rw [find?_put_of_ne d other, folder]
    exact h

theorem walk_put_file {here there : Location} {names : List String}
    (h : d.walk here names = .ok there) :
    (d.put location (.file text)).walk here names = .ok there := by
  induction names generalizing here with
  | nil => exact h
  | cons name names ih =>
    obtain ⟨next, entered, h⟩ := Except.bind_eq_ok_iff.1 h
    exact Except.bind_eq_ok_iff.2 ⟨next, enter_put_file free entered, ih h⟩

end Put

/-- A path leads to a file if it ends in a name under folders that are there, and the name is not
that of a folder. -/
theorem target_eq_ok_iff {d : Disk} {here there : Location} {path : String} :
    d.target here path = .ok there ↔
      Path.check path = .ok () ∧
      ∃ name above folder, (Path.parts path).reverse.dropWhile (· == "") = name :: above ∧
        d.walk (start here path) (above.reverse.filter fun part => ¬ Path.IsIdle part) = .ok folder ∧
        ¬ (name = "." ∨ name = ".." ∨ (Path.parts path).getLast? = some "") ∧
        step folder name = .ok there ∧ d.find? there ≠ some .folder := by
  rw [target, Except.bind_eq_ok_iff]
  constructor
  · rintro ⟨_, checked, h⟩
    refine ⟨checked, ?_⟩
    split at h
    · cases h
    · next name above names =>
      obtain ⟨folder, walked, h⟩ := Except.bind_eq_ok_iff.1 h
      split at h
      · cases h
      · next is_name =>
        obtain ⟨found, reached, h⟩ := Except.bind_eq_ok_iff.1 h
        split at h
        · cases h
        · next free =>
          cases h
          exact ⟨name, above, folder, names, walked, is_name, reached, free⟩
  · rintro ⟨checked, name, above, folder, names, walked, is_name, reached, free⟩
    refine ⟨(), checked, ?_⟩
    rw [names]
    refine Except.bind_eq_ok_iff.2 ⟨folder, walked, ?_⟩
    rw [if_neg is_name]
    refine Except.bind_eq_ok_iff.2 ⟨there, reached, ?_⟩
    split
    · contradiction
    · rfl

theorem step_ne_nil {here there : Location} {name : String} (up : name ≠ "..")
    (h : step here name = .ok there) : there ≠ [] := by
  rw [step, if_neg up] at h
  split at h
  · cases h
  · cases h
    simp

/-- The file that was written is found again under its path. -/
theorem target_put_file {d : Disk} {here there : Location} {path : String} (text : String)
    (h : d.target here path = .ok there) :
    (d.put there (.file text)).target here path = .ok there ∧
      (d.put there (.file text)).text? there = some text := by
  obtain ⟨checked, name, above, folder, names, walked, is_name, reached, free⟩ :=
    target_eq_ok_iff.1 h
  have present : there ≠ [] := by
    apply step_ne_nil _ reached
    rintro rfl
    exact is_name (.inr (.inl rfl))
  refine ⟨target_eq_ok_iff.2 ⟨checked, name, above, folder, names, walk_put_file free walked,
    is_name, reached, ?_⟩, ?_⟩
  · simp [find?, put, present]
  · rw [text?_put _ _ _ _ present, if_pos rfl]

theorem text?_put_file_of_ne (d : Disk) {location other : Location} (h : other ≠ location)
    (text : String) : (d.put location (.file text)).text? other = d.text? other := by
  rw [text?, text?, find?_put_of_ne d h]

/-- The path leads to a file that holds the text, and no other file has changed. -/
def Saved (d after : Disk) (here : Location) (path text : String) : Prop :=
  ∃ there, after.target here path = .ok there ∧ after.text? there = some text ∧
    ∀ other, other ≠ there → after.text? other = d.text? other

theorem save_cases (d : Disk) (here : Location) (path text : String) :
    ((d.save here path text).1 = .ok () ∧ Saved d (d.save here path text).2 here path text) ∨
    ((∃ cause, (d.save here path text).1 = .error cause) ∧
      SameFiles d (d.save here path text).2) := by
  have kept := sameFiles_makeParents d here path
  unfold save
  split
  · next cause left made =>
    rw [made] at kept
    exact .inr ⟨⟨cause, rfl⟩, kept⟩
  · next left made =>
    rw [made] at kept
    split
    · next cause _ => exact .inr ⟨⟨cause, rfl⟩, kept⟩
    · next there found =>
      obtain ⟨again, written⟩ := target_put_file text found
      refine .inl ⟨rfl, there, again, written, ?_⟩
      intro other differs
      rw [text?_put_file_of_ne left differs]
      exact kept other

end Disk

end TestScript
