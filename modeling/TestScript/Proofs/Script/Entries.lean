import TestScript.Proofs.Script.Cutting
import TestScript.Proofs.Text.Splitting

/-!
Entries found again in a script. Cut at its blank lines a script gives its entries exactly when no
entry holds a blank line and none but the last ends in a line feed. Where no text that is written
into the script has a line feed of its own, each entry takes two lines and a blank one parts it from
the next.
-/

namespace TestScript

namespace Step

/-- The texts that the line of the step is made with. -/
def lineTexts (s : Step) : List String :=
  match s.action with
  | .known .type => [s.locator, s.data]
  | .known .wait => [s.data]
  | .known .expect => [s.locator, s.expected]
  | .known _ => [s.locator]
  | .custom name => [name, s.locator]

/-- No text that is written into the script has a line feed. -/
def OneLine (s : Step) : Prop :=
  '\n' ∉ s.description.toList ∧ ∀ text ∈ s.lineTexts, '\n' ∉ text.toList

instance (s : Step) : Decidable s.OneLine := inferInstanceAs (Decidable (_ ∧ _))

theorem newline_mem_line_iff {s : Step} :
    '\n' ∈ s.line.toList ↔ ∃ text ∈ s.lineTexts, '\n' ∈ text.toList := by
  unfold line lineTexts
  cases s.action with
  | custom name => simp [remark]
  | known verb => cases verb <;> simp [Verb.opening, Verb.closing, Verb.argument]

theorem line_ne_empty (s : Step) : s.line ≠ "" := by
  unfold line
  cases s.action with
  | custom name => simp [remark]
  | known verb => cases verb <;> simp [Verb.opening]

theorem OneLine.newline_not_mem_line {s : Step} (h : s.OneLine) : '\n' ∉ s.line.toList := by
  rw [newline_mem_line_iff]
  rintro ⟨text, mem, broken⟩
  exact h.2 text mem broken

/-- The only line feed of such an entry is the one above its line. -/
theorem OneLine.count_newline_entry {s : Step} (h : s.OneLine) : s.entry.toList.count '\n' = 1 := by
  have description := List.count_eq_zero.2 h.1
  have line := List.count_eq_zero.2 h.newline_not_mem_line
  simp [entry, List.count_append, description, line]

theorem OneLine.getLast?_entry {s : Step} (h : s.OneLine) :
    s.entry.toList.getLast? ≠ some '\n' := by
  have present : s.line.toList ≠ [] := by simpa using s.line_ne_empty
  rw [entry, String.toList_append, List.getLast?_append_of_ne_nil _ present]
  exact fun last => h.newline_not_mem_line (List.mem_of_getLast? last)

end Step

namespace Script

theorem toList_ofSteps (steps : List Step) :
    (ofSteps steps).toList = pair.intercalate (steps.map (·.entry.toList)) := by
  rw [ofSteps, String.toList_intercalate, List.map_map]
  rfl

/-- The script is cut into its entries if and only if these keep clear of their separators. -/
theorem parts_ofSteps_iff {steps : List Step} (present : steps ≠ []) :
    parts (ofSteps steps) = steps.map Step.entry ↔ Separable (steps.map (·.entry.toList)) := by
  have texts : steps.map Step.entry = (steps.map (·.entry.toList)).map String.ofList := by
    simp [Function.comp_def]
  have inj : Function.Injective (List.map String.ofList) :=
    List.map_injective_iff.2 fun _ _ h => String.ofList_injective h
  rw [parts, toList_ofSteps, texts, inj.eq_iff]
  exact cut_intercalate_iff (by simpa using present)

theorem separable_entries_iff {steps : List Step} :
    Separable (steps.map (·.entry.toList)) ↔
      (∀ s ∈ steps, ¬ separator.toList <:+: s.entry.toList) ∧
      ∀ s ∈ steps.dropLast, s.entry.toList.getLast? ≠ some '\n' := by
  have pair_eq : separator.toList = pair := rfl
  rw [Separable, pair_eq, ← List.map_dropLast, List.forall_mem_map, List.forall_mem_map]

theorem separable_of_oneLine {steps : List Step} (h : ∀ s ∈ steps, s.OneLine) :
    Separable (steps.map (·.entry.toList)) := by
  refine separable_entries_iff.2 ⟨fun s mem pair_in => ?_, fun s mem => ?_⟩
  · have count := pair_in.sublist.count_le '\n'
    rw [(h s mem).count_newline_entry] at count
    exact absurd count (by decide)
  · exact (h s (List.dropLast_subset _ mem)).getLast?_entry

/-- Two lines for each step, and an empty one before the next. -/
def lines : List Step → List String
  | [] => []
  | [s] => ["// " ++ s.description, s.line]
  | s :: next :: rest => ("// " ++ s.description) :: s.line :: "" :: lines (next :: rest)

theorem lines_ne_nil {steps : List Step} (present : steps ≠ []) : lines steps ≠ [] := by
  unfold lines
  split
  · contradiction
  · exact List.cons_ne_nil _ _
  · exact List.cons_ne_nil _ _

theorem ofSteps_eq_lines (steps : List Step) :
    ofSteps steps = (String.singleton '\n').intercalate (lines steps) := by
  have newline : String.singleton '\n' = "\n" := rfl
  fun_induction lines steps with
  | case1 => simp
  | case2 s => simp [ofSteps, Step.entry, newline, String.intercalate_cons_cons]
  | case3 s next rest ih =>
    have later : lines (next :: rest) ≠ [] := lines_ne_nil (List.cons_ne_nil next rest)
    have first : ofSteps [s] = s.entry := by simp [ofSteps]
    have script : ofSteps (s :: next :: rest) = ofSteps [s] ++ separator ++ ofSteps (next :: rest) :=
      ofSteps_append (List.cons_ne_nil s []) (List.cons_ne_nil next rest)
    have blank_line : separator = "\n" ++ "\n" := rfl
    rw [script, first, ih, Step.entry, blank_line, newline, String.intercalate_cons_cons,
      String.intercalate_cons_cons, String.intercalate_cons_of_ne_nil later]
    simp only [String.append_assoc, String.empty_append]

theorem newline_not_mem_lines {steps : List Step} (h : ∀ s ∈ steps, s.OneLine) :
    ∀ l ∈ lines steps, '\n' ∉ l.toList := by
  fun_induction lines steps with
  | case1 => simp
  | case2 s =>
    have one := h s List.mem_cons_self
    simpa using ⟨one.1, one.newline_not_mem_line⟩
  | case3 s next rest ih =>
    obtain ⟨one, later⟩ := List.forall_mem_cons.1 h
    simpa using ⟨one.1, one.newline_not_mem_line, ih later⟩

theorem splitOn_ofSteps {steps : List Step} (present : steps ≠ []) (h : ∀ s ∈ steps, s.OneLine) :
    ((ofSteps steps).toList.splitOn '\n').map String.ofList = lines steps := by
  rw [ofSteps_eq_lines]
  exact Text.map_ofList_splitOn_intercalate (lines_ne_nil present) (newline_not_mem_lines h)

theorem length_lines (steps : List Step) : (lines steps).length = 3 * steps.length - 1 := by
  fun_induction lines steps with
  | case1 => rfl
  | case2 s => rfl
  | case3 s next rest ih =>
    simp only [List.length_cons] at ih ⊢
    omega

theorem getElem?_lines (steps : List Step) {i : Nat} (h : i < steps.length) :
    (lines steps)[3 * i]? = some ("// " ++ steps[i].description) ∧
    (lines steps)[3 * i + 1]? = some steps[i].line ∧
    (i + 1 < steps.length → (lines steps)[3 * i + 2]? = some "") := by
  fun_induction lines steps generalizing i with
  | case1 => simp at h
  | case2 s =>
    obtain rfl : i = 0 := by simpa using h
    simp
  | case3 s next rest ih =>
    cases i with
    | zero => simp
    | succ i => simpa [Nat.mul_succ] using ih (Nat.lt_of_succ_lt_succ h)

/-- Cut at its blank lines a script gives its entries if and only if no entry has a blank line in it
and none but the last ends in a line feed. Without line feeds in the texts of the steps, it does,
and the description and the line of each step stand where they are expected. -/
theorem entries_recovered {steps : List Step} (present : steps ≠ []) :
    (parts (ofSteps steps) = steps.map Step.entry ↔
      (∀ s ∈ steps, ¬ separator.toList <:+: s.entry.toList) ∧
      ∀ s ∈ steps.dropLast, s.entry.toList.getLast? ≠ some '\n') ∧
    ((∀ s ∈ steps, '\n' ∉ s.description.toList ∧ ∀ text ∈ s.lineTexts, '\n' ∉ text.toList) →
      let found := ((ofSteps steps).toList.splitOn '\n').map String.ofList
      parts (ofSteps steps) = steps.map Step.entry ∧
      found.length = 3 * steps.length - 1 ∧
      ∀ i, (h : i < steps.length) →
        found[3 * i]? = some ("// " ++ steps[i].description) ∧
        found[3 * i + 1]? = some steps[i].line ∧
        (i + 1 < steps.length → found[3 * i + 2]? = some "")) := by
  refine ⟨(parts_ofSteps_iff present).trans separable_entries_iff, ?_⟩
  intro one found
  have found_eq : found = lines steps := splitOn_ofSteps present one
  rw [found_eq]
  exact ⟨(parts_ofSteps_iff present).2 (separable_of_oneLine one), length_lines steps,
    fun i h => getElem?_lines steps h⟩

/-- Steps with line feeds only in texts that their lines leave out. -/
def quiet : List Step :=
  [⟨"TC\n1", "", .known .wait, .known .css, "two\nlines", "500", "\n"⟩,
   ⟨"TC-2", "Zeigen\r", .custom "Hover", .custom "a\nb", ".menü", "\n\n", "\n"⟩]

theorem quiet_recovered :
    quiet ≠ [] ∧
    (∀ s ∈ quiet, '\n' ∉ s.description.toList ∧ ∀ text ∈ s.lineTexts, '\n' ∉ text.toList) ∧
    parts (ofSteps quiet) = quiet.map Step.entry ∧
    let found := ((ofSteps quiet).toList.splitOn '\n').map String.ofList
    found.length = 5 ∧ found[0]? = some "// " ∧ found[2]? = some "" ∧
    found[4]? = some "// Action: Hover, Locator: .menü" := by
  have present : quiet ≠ [] := by decide
  have one : ∀ s ∈ quiet, s.OneLine := by decide
  obtain ⟨_, recovered⟩ := entries_recovered present
  obtain ⟨entries, length, found⟩ := recovered one
  obtain ⟨first, _, blank⟩ := found 0 (by decide)
  obtain ⟨_, last, _⟩ := found 1 (by decide)
  exact ⟨present, one, entries, length, first, blank (by decide), last⟩

end Script

end TestScript
