import TestScript.Proofs.Command.Delivery
import TestScript.Proofs.Form.Batch
import TestScript.Proofs.Table.ReadBack

namespace TestScript

theorem Rendering.ofTab_practice {tab : Tab} (h : tab ≠ .learn) :
    ofTab tab .practice = .ok (if tab = .script then .script else .table) := by
  cases tab with
  | learn => exact absurd rfl h
  | practice => rfl
  | script => rfl

namespace Command

variable (specs : List String) {output : Output}

theorem report_sequence_of_learn (learn : output.tab = .learn) :
    (printSequence specs output).report = .error (.tabUnavailable .learn) := by
  simp [report, learn, Rendering.ofTab, bind, Except.bind]

/-- What is printed for the specs. Only a table can fail to be set. -/
theorem report_sequence_of_ne_learn (tab : output.tab ≠ .learn) :
    ∃ r, (printSequence specs output).report = .ok r ∧ r.path = output.path ∧
      r.text? =
        if output.json then
          some (Json.array ((Batch.ofSpecs specs).steps.map Step.toJson)).wideText
        else if output.tab = .script then some (Script.ofSteps (Batch.ofSpecs specs).steps)
        else (Table.ofSteps (Batch.ofSpecs specs).steps).text? := by
  refine ⟨_, Except.bind_eq_ok_iff.2 ⟨_, Rendering.ofTab_practice tab, rfl⟩, rfl, ?_⟩
  by_cases script : output.tab = .script
  · simp only [script, ↓reduceIte, Rendering.text?]
  · simp only [script, ↓reduceIte, Rendering.text?]

end Command

theorem Outcome.ofFault_eq (fault : Fault) :
    ofFault fault =
      { code := 1, output := "", note := some ("step-script: " ++ fault.message) } := by
  have start : program ++ ": " = "step-script: " := by decide
  rw [ofFault, start]

theorem Outcome.printed_eq (text : String) :
    printed text =
      if text = "" ∨ text.toList.getLast? = some '\n' then text else text ++ "\n" := by
  by_cases ended : text = "" ∨ text.toList.getLast? = some '\n'
  · have nothing_missing : ¬ (text ≠ "" ∧ text.toList.getLast? ≠ some '\n') :=
      fun ⟨present, unended⟩ => ended.elim present unended
    rw [printed, if_neg nothing_missing, if_pos ended, String.append_empty]
  · rw [printed, if_pos (not_or.1 ended), if_neg ended]

/-- A report with a text is printed, or saved if it is for a file. -/
theorem Report.deliver_text {r : Report} {text : String} (set : r.text? = some text) (d : Disk)
    (here : Location) :
    let printed := if text = "" ∨ text.toList.getLast? = some '\n' then text else text ++ "\n"
    (r.path = none → r.deliver d here = ({ code := 0, output := printed }, d)) ∧
      ∀ path, r.path = some path → Delivered d here path printed (r.deliver d here) := by
  intro printed
  have text_printed : Outcome.printed text = printed := Outcome.printed_eq text
  constructor
  · intro free
    rw [deliver_printed d here set free, Outcome.ofText, text_printed]
  · intro path wanted
    rw [← text_printed, Outcome.printed_eq_fileText]
    exact deliver_written d here set wanted

/-- The order and the spelling of what is given make no difference. Under the tab of the lessons
there is nothing to print for specs. Under another tab there is a text for the steps that are built
of them, unless it is a table and a text of a step has no room in a column. It is printed, its last
line ended, or saved if there is a path. -/
theorem run_sequence {early args : List String} {given : List Given} {output : Output}
    (leads : Request.Leads early) (spelled : Given.Spelled given args)
    (asks : AsksForSequence given output) (preset : Option String) (d : Disk) (here : Location) :
    let ran := run preset (early ++ "custom" :: args) d here
    let steps := (Batch.ofSpecs (Given.values .step given)).steps
    (output.tab = .learn → ran =
      ({ code := 1, output := "",
         note := some "step-script: the Learn tab is not available for this command" }, d)) ∧
    (output.tab ≠ .learn →
      (output.json = false → output.tab = .practice → ∀ s ∈ steps,
        ∀ text ∈ [s.id, s.description, s.action.label, s.kind.label, s.locator, s.data,
          s.expected], text.length ≤ 65535) →
      ∃ text,
        (output.json = true → text = (Json.array (steps.map Step.toJson)).wideText) ∧
        (output.json = false → output.tab = .script → text = Script.ofSteps steps) ∧
        (output.json = false → output.tab = .practice →
          (Table.ofSteps steps).text? = some text) ∧
        let printed := if text = "" ∨ text.toList.getLast? = some '\n' then text else text ++ "\n"
        (output.path = none → ran = ({ code := 0, output := printed }, d)) ∧
        ∀ path, output.path = some path → Delivered d here path printed ran) := by
  intro ran steps
  have performed : ran = Request.perform preset _ d here :=
    run_of_request (asks.ofArguments?_eq leads spelled preset) d here
  constructor
  · intro learn
    have told : Fault.message (.tabUnavailable .learn) =
        "the Learn tab is not available for this command" := by decide
    rw [performed, Request.perform_error preset d here (Command.report_sequence_of_learn _ learn),
      Outcome.ofFault_eq, told]
    rfl
  · intro tab short
    obtain ⟨r, told, path_eq, text_eq⟩ :=
      Command.report_sequence_of_ne_learn (Given.values .step given) tab
    rw [performed, Request.perform_ok preset d here told, ← path_eq]
    cases json : output.json with
    | true =>
      rw [if_pos json] at text_eq
      exact ⟨_, fun _ => rfl, nofun, nofun, Report.deliver_text text_eq d here⟩
    | false =>
      rw [json, if_neg Bool.false_ne_true] at text_eq
      cases chosen : output.tab with
      | learn => exact absurd chosen tab
      | script =>
        rw [if_pos chosen] at text_eq
        exact ⟨_, nofun, fun _ _ => rfl, nofun, Report.deliver_text text_eq d here⟩
      | practice =>
        rw [chosen, if_neg (by decide)] at text_eq
        have set : (Table.ofSteps steps).text? = some _ :=
          Table.text?_ofSteps_eq_some_iff.2 ⟨short json chosen, rfl⟩
        exact ⟨_, nofun, nofun, fun _ _ => set, Report.deliver_text (text_eq.trans set) d here⟩

theorem asks_step (spec : String) : AsksForSequence [.value .step spec] { tab := .practice } := by
  refine ⟨by simp, by simp, ?_, by simp, fun _ => rfl, by simp, by simp, by simp⟩
  simp [Given.values, Given.value?]

/-- Two specs, of which the second makes no step, with a tab between them. -/
def mixed : List Given :=
  [.flag .verbose, .value .step "Click|ID|go", .value .tab " SCRIPT", .value .step "a=b|c"]

theorem spelled_mixed :
    Given.Spelled mixed ["-vs", "Click|ID|go", "-t SCRIPT", "--step=a=b|c"] :=
  .letters (.flag rfl rfl (.apart rfl rfl (by decide)))
    (.letters (.attached rfl rfl (by decide) (by decide)) (.equals rfl .nil))

theorem asks_mixed : AsksForSequence mixed { tab := .script } := by
  refine ⟨by simp [mixed], by simp [mixed, Given.switch?], by decide, ?_, ?_, by decide,
    by simp [mixed], by decide⟩
  · intro name mem
    obtain rfl : name = " SCRIPT" := by simpa [mixed] using mem
    rw [Tab.ofName_eq_ok_iff, Text.caseless_iff, Text.toList_trim]
    decide
  · intro absent
    exact absurd (.tail _ (.tail _ (.head _))) (absent " SCRIPT")

/-- A spec of too many texts, and the wish for JSON. -/
def refused : List Given := [.flag .json, .value .step "||||||"]

theorem spelled_refused : Given.Spelled refused ["--json", "-s=||||||"] :=
  .flag rfl (.letters (.equals rfl rfl) .nil)

theorem asks_refused : AsksForSequence refused { tab := .practice, json := true } :=
  ⟨by simp [refused], by simp [refused, Given.switch?], by decide, by simp [refused],
    fun _ => rfl, by decide, by simp [refused], by decide⟩

/-- The step of a spec that is given alone. -/
def go : Step := ⟨"TC-CUSTOM-001", "Click", .known .click, .known .id, "go", "", ""⟩

def goTable : String :=
  "Test ID        Description  Action  Locator Type  Locator  Test Data  Expected Result\n" ++
  "-------------  -----------  ------  ------------  -------  ---------  ---------------\n" ++
  "TC-CUSTOM-001  Click        Click   ID            go"

theorem steps_ofSpecs_go : (Batch.ofSpecs ["Click|ID|go"]).steps = [go] := by decide +kernel

theorem text?_go : (Table.ofSteps [go]).text? = some goTable :=
  Table.text?_ofSteps_eq_some_iff.2 ⟨by decide, by decide +kernel⟩

theorem getLast?_append_right {text : String} {c : Char} (h : text.toList.getLast? = some c)
    (before : String) : (before ++ text).toList.getLast? = some c := by
  rw [String.toList_append, List.getLast?_append, h, Option.some_or]

theorem goTable_unended : ¬ (goTable = "" ∨ goTable.toList.getLast? = some '\n') := by
  have last : goTable.toList.getLast? = some 'o' := getLast?_append_right (by decide) _
  rintro (empty | ended)
  · rw [empty] at last
    cases last
  · rw [last] at ended
    exact absurd ended (by decide)

theorem mixed_sequence :
    AsksForSequence mixed { tab := .script } ∧
    run none ["custom", "-vs", "Click|ID|go", "-t SCRIPT", "--step=a=b|c"] .empty [] =
      ({ code := 0, output := "// Click\nclick(go)\n" }, .empty) ∧
    AsksForSequence refused { tab := .practice, json := true } ∧
    run none ["-v", "custom", "--json", "-s=||||||"] .empty [] =
      ({ code := 0, output := "[]\n" }, .empty) ∧
    AsksForSequence [.value .step "Click|ID|go"] { tab := .practice } ∧
    run none ["custom", "--step", "Click|ID|go"] .empty [] =
      ({ code := 0, output := goTable ++ "\n" }, .empty) := by
  have spelled : Given.Spelled [.value .step "Click|ID|go"] ["--step", "Click|ID|go"] :=
    .apart rfl (by decide) .nil
  have asks := asks_step "Click|ID|go"
  have short : ∀ s ∈ (Batch.ofSpecs ["Click|ID|go"]).steps, ∀ text ∈ s.texts,
      text.length ≤ 65535 := by
    rw [steps_ofSpecs_go]
    decide
  obtain ⟨script, _, script_eq, _, printed, _⟩ :=
    (run_sequence (.inl rfl) spelled_mixed asks_mixed none .empty []).2 (by decide) (by simp)
  obtain ⟨json, json_eq, _, _, listed, _⟩ :=
    (run_sequence (.inr (.inl rfl)) spelled_refused asks_refused none .empty []).2 (by decide)
      (by simp)
  obtain ⟨table, _, _, table_eq, shown, _⟩ :=
    (run_sequence (.inl rfl) spelled asks none .empty []).2 (by decide) fun _ _ => short
  obtain rfl : script = "// Click\nclick(go)" := (script_eq rfl rfl).trans (by decide +kernel)
  obtain rfl : json = "[]" := (json_eq rfl).trans (by decide +kernel)
  have told : (Table.ofSteps (Batch.ofSpecs ["Click|ID|go"]).steps).text? = some table :=
    table_eq rfl rfl
  rw [steps_ofSpecs_go, text?_go] at told
  obtain rfl : goTable = table := Option.some.inj told
  rw [if_neg goTable_unended] at shown
  exact ⟨asks_mixed, printed rfl, asks_refused, listed rfl, asks, shown rfl⟩

/-- A table that has no room for a text of a step ends the run before anything is printed or
saved. -/
theorem run_sequence_of_wide {early args : List String} {given : List Given} {output : Output}
    (leads : Request.Leads early) (spelled : Given.Spelled given args)
    (asks : AsksForSequence given output) (text : output.json = false)
    (table : output.tab = .practice)
    {s : Step} (mem : s ∈ (Batch.ofSpecs (Given.values .step given)).steps)
    {cell : String} (own : cell ∈ s.texts) (wide : 65535 < cell.length)
    (preset : Option String) (d : Disk) (here : Location) :
    run preset (early ++ "custom" :: args) d here = ({ code := 101, output := "" }, d) := by
  have performed : run preset (early ++ "custom" :: args) d here = _ :=
    run_of_request (asks.ofArguments?_eq leads spelled preset) d here
  have tab : output.tab ≠ .learn := by
    rw [table]
    decide
  obtain ⟨r, told, _, text_eq⟩ :=
    Command.report_sequence_of_ne_learn (Given.values .step given) tab
  rw [text, if_neg Bool.false_ne_true, table, if_neg (by decide)] at text_eq
  have unset : (Table.ofSteps (Batch.ofSpecs (Given.values .step given)).steps).text? = none := by
    refine Option.eq_none_iff_forall_ne_some.2 fun _ set => ?_
    have narrow := (Table.text?_ofSteps_eq_some_iff.1 set).1 s mem cell own
    exact absurd wide (Nat.not_lt.2 narrow)
  rw [performed, Request.perform_ok preset d here told,
    Report.deliver_of_text?_eq_none d here (text_eq.trans unset)]
  rfl

theorem Batch.exists_step_of_locator {locator : String} (present : locator ≠ "")
    (barless : '|' ∉ locator.toList) :
    ∃ s ∈ (Batch.ofSpecs ["Click|CSS|" ++ locator]).steps, s.locator = locator := by
  have parts : Spec.parts ("Click|CSS|" ++ locator) = ["Click", "CSS", locator] := by
    refine Spec.parts_eq_iff.2 ⟨?_, List.cons_ne_nil _ _, by simpa [Spec.bar] using barless⟩
    apply String.toList_injective
    simp [Spec.ofParts, Spec.bar]
  have acceptable : Spec.Acceptable ("Click|CSS|" ++ locator) :=
    Spec.acceptable_iff.2 ⟨Spec.sized_iff.2 (by simp [parts]), by simp [parts, present]⟩
  have kept : ["Click|CSS|" ++ locator].filter (Spec.Acceptable ·) = ["Click|CSS|" ++ locator] :=
    List.filter_cons_of_pos (by simpa using acceptable)
  have text : Spec.text ("Click|CSS|" ++ locator) .locator = locator := by
    rw [Spec.text, parts]
    rfl
  rw [Batch.steps_ofSpecs, kept]
  exact ⟨_, List.mem_cons_self, text⟩

/-- A locator of this many characters. -/
def longLocator (n : Nat) : String := String.ofList (List.replicate n 'x')

theorem length_longLocator (n : Nat) : (longLocator n).length = n := by
  rw [longLocator, String.length_ofList, List.length_replicate]

theorem bar_not_mem_longLocator (n : Nat) : '|' ∉ (longLocator n).toList := by
  rw [longLocator, String.toList_ofList]
  intro mem
  exact absurd (List.eq_of_mem_replicate mem) (by decide)

theorem longLocator_ne_empty {n : Nat} (positive : 0 < n) : longLocator n ≠ "" := by
  intro empty
  have length := length_longLocator n
  rw [empty] at length
  exact absurd length.symm (Nat.ne_of_gt positive)

/-- A step is given, the tab is that of the table and no path is wanted, but nothing is printed. -/
theorem long_sequence_not_printed :
    let spec := "Click|CSS|" ++ longLocator 65536
    AsksForSequence [.value .step spec] { tab := .practice } ∧
    Given.Spelled [.value .step spec] ["--step=" ++ spec] ∧
    run none ["custom", "--step=" ++ spec] .empty [] = ({ code := 101, output := "" }, .empty) := by
  intro spec
  have spelled : Given.Spelled [.value .step spec] ["--step=" ++ spec] := .equals rfl .nil
  have asks : AsksForSequence [.value .step spec] { tab := .practice } := asks_step spec
  obtain ⟨s, mem, locator⟩ := Batch.exists_step_of_locator
    (longLocator_ne_empty (by decide)) (bar_not_mem_longLocator 65536)
  have own : longLocator 65536 ∈ s.texts := by simp [Step.texts, locator]
  have wide : 65535 < (longLocator 65536).length := by
    rw [length_longLocator]
    decide
  exact ⟨asks, spelled, run_sequence_of_wide (.inl rfl) spelled asks rfl rfl mem own wide _ _ _⟩

end TestScript
