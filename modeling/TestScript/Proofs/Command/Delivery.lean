import TestScript.Command.Outcome
import TestScript.Proofs.Command.Requesting
import TestScript.Proofs.Disk.Saving

namespace TestScript

theorem Catalog.find_eq_error {c : Catalog} {query : String} {fault : Fault}
    (h : c.find query = .error fault) : ∃ wanted, fault = .unknownLesson wanted :=
  ⟨_, (find_eq_error_iff.1 h).2⟩

theorem Catalog.named_eq_error {c : Catalog} {query : String} {fault : Fault}
    (h : c.named query = .error fault) : ∃ wanted, fault = .unknownLesson wanted := by
  obtain failed | ⟨index, _, h⟩ := Except.bind_eq_error_iff.1 h
  · exact find_eq_error failed
  · split at h <;> cases h
    exact ⟨_, rfl⟩

theorem Rendering.ofTab_eq_error {tab home : Tab} {fault : Fault}
    (h : ofTab tab home = .error fault) : fault = .tabUnavailable tab := by
  unfold ofTab at h
  split at h
  · cases h
  · split at h <;> cases h
    rfl

namespace Command

/-- How a command prints steps, if it does. -/
def output? : Command → Option Output
  | .printLesson _ output | .printSequence _ output => some output
  | .lessons | .actions => none

/-- The same command, with a file for what it prints. -/
def withPath (path : String) : Command → Command
  | .printLesson query output => .printLesson query { output with path := some path }
  | .printSequence specs output => .printSequence specs { output with path := some path }
  | command => command

/-- All that can go wrong with a command, before its text is handed over. -/
theorem report_eq_error {command : Command} {fault : Fault} (h : command.report = .error fault) :
    (∃ wanted, fault = .unknownLesson wanted) ∨ ∃ tab, fault = .tabUnavailable tab := by
  cases command with
  | lessons | actions => cases h
  | printLesson query output =>
    obtain failed | ⟨lesson, _, h⟩ := Except.bind_eq_error_iff.1 h
    · exact .inl (Catalog.named_eq_error failed)
    · obtain failed | ⟨rendering, _, h⟩ := Except.bind_eq_error_iff.1 h
      · exact .inr ⟨_, Rendering.ofTab_eq_error failed⟩
      · cases h
  | printSequence specs output =>
    obtain failed | ⟨rendering, _, h⟩ := Except.bind_eq_error_iff.1 h
    · exact .inr ⟨_, Rendering.ofTab_eq_error failed⟩
    · cases h

/-- The path stands in the report as it was given, and makes no difference to the text. -/
theorem report_withPath {command : Command} {output : Output} {r : Report}
    (prints : command.output? = some output) (h : command.report = .ok r) :
    r.path = output.path ∧
      ∀ path, (command.withPath path).report = .ok { r with path := some path } := by
  cases command with
  | lessons | actions => cases prints
  | printLesson query output =>
    cases prints
    obtain ⟨lesson, named, h⟩ := Except.bind_eq_ok_iff.1 h
    obtain ⟨rendering, chosen, h⟩ := Except.bind_eq_ok_iff.1 h
    cases h
    exact ⟨rfl, fun path => Except.bind_eq_ok_iff.2
      ⟨lesson, named, Except.bind_eq_ok_iff.2 ⟨rendering, chosen, rfl⟩⟩⟩
  | printSequence specs output =>
    cases prints
    obtain ⟨rendering, chosen, h⟩ := Except.bind_eq_ok_iff.1 h
    cases h
    exact ⟨rfl, fun path => Except.bind_eq_ok_iff.2 ⟨rendering, chosen, rfl⟩⟩

end Command

/-- The text was for a file: it stands there and no other file has changed, or it could not be saved
and no file has changed. Nothing is printed. -/
def Delivered (d : Disk) (here : Location) (path text : String) (result : Outcome × Disk) : Prop :=
  result.1.output = "" ∧
  ((d.save here path text).1 = .ok () ∧ result.1.code = 0 ∧ d.Saved result.2 here path text ∨
    ∃ cause, (d.save here path text).1 = .error cause ∧ result.1 = .ofFault (.file cause) ∧
      result.1.code = 1 ∧ d.SameFiles result.2)

/-- The line feed at the end of what is printed is the one at the end of what is written to a file.
-/
theorem Outcome.printed_eq_fileText (text : String) : printed text = Disk.fileText text := by
  have line_feed : "\n" = String.singleton '\n' := rfl
  unfold printed Disk.fileText
  split
  · rw [line_feed, String.append_singleton]
  · exact String.append_empty

namespace Report

variable {r : Report} (d : Disk) (here : Location)

theorem deliver_of_text?_eq_none (unset : r.text? = none) : r.deliver d here = (.aborted, d) := by
  simp [deliver, unset]

variable {text : String} (set : r.text? = some text)
include set

theorem deliver_printed (free : r.path = none) : r.deliver d here = (.ofText text, d) := by
  simp [deliver, set, free]

theorem deliver_written {path : String} (wanted : r.path = some path) :
    Delivered d here path (Disk.fileText text) (r.deliver d here) := by
  simp only [deliver, set, wanted, Disk.write]
  obtain ⟨done, saved⟩ | ⟨⟨cause, failed⟩, same⟩ := d.save_cases here path (Disk.fileText text)
  · split
    · next left result =>
      rw [result] at saved
      exact ⟨rfl, .inl ⟨done, rfl, saved⟩⟩
    · next result =>
      rw [result] at done
      cases done
  · split
    · next result =>
      rw [result] at failed
      cases failed
    · next found left result =>
      rw [result] at failed same
      cases failed
      exact ⟨rfl, .inr ⟨cause, by rw [result], rfl, rfl, same⟩⟩

end Report

namespace Request

variable {command : Command} (preset : Option String) (d : Disk) (here : Location)

theorem perform_error {fault : Fault} (h : command.report = .error fault) :
    perform preset (.run command) d here = (.ofFault fault, d) := by
  simp [perform, h]

theorem perform_ok {r : Report} (h : command.report = .ok r) :
    perform preset (.run command) d here = r.deliver d here := by
  simp [perform, h]

end Request

theorem run_of_request {preset : Option String} {args : List String} {request : Request}
    (h : Request.ofArguments? preset args = some request) (d : Disk) (here : Location) :
    run preset args d here = request.perform preset d here := by
  rw [run, h]

namespace Given

theorem values_insert {switch other : Switch} (differs : other ≠ switch) (text : String)
    (before after : List Given) :
    values switch (before ++ .value other text :: after) = values switch (before ++ after) := by
  rw [values_append, values_append, values_cons_of_ne differs]

/-- What differs from all that is given may be given anywhere among it. -/
theorem pairwise_compatible_insert {before after : List Given} {g : Given}
    (compatible : (before ++ after).Pairwise Compatible)
    (differs : ∀ other ∈ before ++ after, other.switch? ≠ g.switch?) :
    (before ++ g :: after).Pairwise Compatible := by
  obtain ⟨first, last, across⟩ := List.pairwise_append.1 compatible
  rw [List.forall_mem_append] at differs
  refine List.pairwise_append.2 ⟨first, List.pairwise_cons.2 ⟨?_, last⟩, ?_⟩
  · intro other mem same
    exact absurd same.symm (differs.2 other mem)
  · intro one here other mem
    obtain rfl | mem := List.mem_cons.1 mem
    · intro same
      exact absurd same (differs.1 one here)
    · exact across one here other mem

/-- Without a path, nothing that is given is the switch for one. -/
theorem switch?_ne_output {given : List Given} {args : List String} (spelled : Spelled given args)
    (free : (Settings.ofGiven given).path = none) {g : Given} (mem : g ∈ given) :
    g.switch? ≠ some .output := by
  cases g with
  | refused => simp [switch?]
  | flag switch =>
    rintro ⟨⟩
    cases spelled.takesValue mem
  | value switch text =>
    rintro ⟨⟩
    exact getLast?_values_eq_none_iff.1 free text mem

end Given

namespace Settings

/-- A command that prints steps knows the switch for a path, and has the path that is set. -/
theorem path_of_command? {s : Settings} {preset : Option String} {name : CommandName}
    {command : Command} {output : Output} (told : s.command? preset name = some command)
    (prints : command.output? = some output) : .output ∈ name.switches ∧ s.path = output.path := by
  cases name with
  | lessons | actions =>
    cases told
    cases prints
  | lesson =>
    cases told
    cases prints
    exact ⟨by decide, rfl⟩
  | sequence =>
    rw [command?] at told
    split at told <;> cases told
    cases prints
    exact ⟨by decide, rfl⟩

variable {before after : List Given} (free : (ofGiven (before ++ after)).path = none)
include free

theorem path_insert (path : String) :
    (ofGiven (before ++ .value .output path :: after)).path = some path := by
  have absent : Given.values .output (before ++ after) = [] := List.getLast?_eq_none_iff.1 free
  rw [Given.values_append, List.append_eq_nil_iff] at absent
  simp [ofGiven, Given.values_append, Given.values_cons_self, absent]

theorem output_insert (home : Tab) (path : String) :
    (ofGiven (before ++ .value .output path :: after)).output home =
      { (ofGiven (before ++ after)).output home with path := some path } := by
  have json : Switch.json ∈ (ofGiven (before ++ .value .output path :: after)).seen ↔
      Switch.json ∈ (ofGiven (before ++ after)).seen := by
    simp only [ofGiven, List.mem_reverse, List.filterMap_append, List.mem_append,
      List.filterMap_cons, Given.switch?, List.mem_cons, reduceCtorEq, false_or]
  have tab : (ofGiven (before ++ .value .output path :: after)).tab =
      (ofGiven (before ++ after)).tab := by
    simp [ofGiven, Given.values_insert]
  simp only [output, json, tab, path_insert free]

/-- A path that is added changes nothing else about the command. -/
theorem command?_insert (preset : Option String) (name : CommandName) (path : String) :
    (ofGiven (before ++ .value .output path :: after)).command? preset name =
      ((ofGiven (before ++ after)).command? preset name).map (Command.withPath path) := by
  cases name with
  | lessons | actions => rfl
  | lesson =>
    have lesson : (ofGiven (before ++ .value .output path :: after)).lesson =
        (ofGiven (before ++ after)).lesson := by
      simp [ofGiven, Given.values_insert]
    simp [command?, output_insert free, lesson, Command.withPath]
  | sequence =>
    have specs : (ofGiven (before ++ .value .output path :: after)).specs =
        (ofGiven (before ++ after)).specs := by
      simp [ofGiven, Given.values_insert]
    simp only [command?, output_insert free, specs]
    split <;> rfl

end Settings

namespace Request

/-- The second are the arguments of the first, in any spelling, with a path added among them. -/
def AddsPath (path : String) (first second : List String) : Prop :=
  ∃ early name before after args more, Leads early ∧
    first = early ++ CommandName.word name :: args ∧ Given.Spelled (before ++ after) args ∧
    second = early ++ CommandName.word name :: more ∧
      Given.Spelled (before ++ .value .output path :: after) more

variable {preset : Option String} {first second : List String} {command : Command} {output : Output}
  {path : String} (requested : ofArguments? preset first = some (.run command))
include requested

theorem exists_addsPath : ∃ second, AddsPath path first second := by
  obtain ⟨early, name, args, rfl, leads, _⟩ := exists_leads_of_read? requested
  rw [ofArguments?_leads preset leads] at requested
  obtain ⟨given, _, spelled, _⟩ := ofCommand?_eq_run_iff.1 requested
  exact ⟨_, early, name, [], given, args, _, leads, rfl, spelled, rfl, .equals rfl spelled⟩

theorem ofArguments?_addsPath (prints : command.output? = some output) (free : output.path = none)
    (present : path ≠ "") (adds : AddsPath path first second) :
    ofArguments? preset second = some (.run (command.withPath path)) := by
  obtain ⟨early, name, before, after, args, more, leads, rfl, spelled, rfl, spelledMore⟩ := adds
  rw [ofArguments?_leads preset leads] at requested ⊢
  obtain ⟨given, within, spelledGiven, accepted, compatible, told⟩ :=
    ofCommand?_eq_run_iff.1 requested
  -- what the program reads is what the arguments spell
  obtain rfl := spelledGiven.unique spelled
  obtain ⟨known, path_eq⟩ := Settings.path_of_command? told prints
  rw [free] at path_eq
  refine ofCommand?_eq_run_iff.2 ⟨_, ?_, spelledMore, ?_, ?_, ?_⟩
  · obtain ⟨withinBefore, withinAfter⟩ := Given.within_append.1 within
    exact Given.within_append.2 ⟨withinBefore, Given.within_value.2 ⟨known, withinAfter⟩⟩
  · obtain ⟨acceptedBefore, acceptedAfter⟩ := List.forall_mem_append.1 accepted
    exact List.forall_mem_append.2 ⟨acceptedBefore, List.forall_mem_cons.2 ⟨present, acceptedAfter⟩⟩
  · apply Given.pairwise_compatible_insert compatible
    intro other mem
    exact Given.switch?_ne_output spelled path_eq mem
  · rw [Settings.command?_insert path_eq, told]
    rfl

end Request

namespace Outcome

/-- What was asked for makes no sense, is not there, or cannot be set. -/
def Refused (outcome : Outcome) : Prop :=
  outcome = .misuse ∨ (∃ wanted, outcome = .ofFault (.unknownLesson wanted)) ∨
    (∃ tab, outcome = .ofFault (.tabUnavailable tab)) ∨ outcome = .aborted

theorem Refused.code_ne_zero {outcome : Outcome} (h : outcome.Refused) : outcome.code ≠ 0 := by
  obtain rfl | ⟨wanted, rfl⟩ | ⟨tab, rfl⟩ | rfl := h <;> simp [misuse, ofFault, aborted]

theorem head?_append_left {text : String} {c : Char} (h : text.toList.head? = some c)
    (more : String) : (text ++ more).toList.head? = some c := by
  rw [String.toList_append, List.head?_append, h, Option.some_or]

theorem message_eq_of_ofFault {fault other : Fault} (h : ofFault fault = ofFault other) :
    fault.message = other.message := by
  have note := congrArg Outcome.note h
  simpa [ofFault] using note

theorem Refused.ne_file {outcome : Outcome} (h : outcome.Refused) (cause : FileFault) :
    outcome ≠ .ofFault (.file cause) := by
  -- the note tells the causes apart by the first letter of its message
  have file : (Fault.file cause).message.toList.head? = some 'I' :=
    head?_append_left (by decide) _
  obtain rfl | ⟨wanted, rfl⟩ | ⟨tab, rfl⟩ | rfl := h
  · simp [misuse, ofFault]
  · intro same
    have lesson : (Fault.unknownLesson wanted).message.toList.head? = some 'n' :=
      head?_append_left (head?_append_left (by decide) _) _
    rw [message_eq_of_ofFault same, file] at lesson
    simp at lesson
  · intro same
    have title : (Fault.tabUnavailable tab).message.toList.head? = some 't' :=
      head?_append_left (head?_append_left (by decide) _) _
    rw [message_eq_of_ofFault same, file] at title
    simp at title
  · simp [aborted, ofFault]

end Outcome

/-- How a run can end. -/
theorem run_cases (preset : Option String) (args : List String) (d : Disk) (here : Location) :
    (run preset args d here).1.code = 0 ∨
    ((run preset args d here).1.Refused ∧ (run preset args d here).1.output = "" ∧
      (run preset args d here).2 = d) ∨
    ((∃ cause, (run preset args d here).1 = .ofFault (.file cause)) ∧
      (run preset args d here).1.output = "" ∧ d.SameFiles (run preset args d here).2) := by
  cases requested : Request.ofArguments? preset args with
  | none =>
    rw [run, requested]
    exact .inr (.inl ⟨.inl rfl, rfl, rfl⟩)
  | some request =>
    rw [run_of_request requested]
    cases request with
    | help | version => exact .inl rfl
    | run command =>
      cases told : command.report with
      | error fault =>
        rw [Request.perform_error preset d here told]
        obtain ⟨wanted, rfl⟩ | ⟨tab, rfl⟩ := Command.report_eq_error told
        · exact .inr (.inl ⟨.inr (.inl ⟨wanted, rfl⟩), rfl, rfl⟩)
        · exact .inr (.inl ⟨.inr (.inr (.inl ⟨tab, rfl⟩)), rfl, rfl⟩)
      | ok report =>
        rw [Request.perform_ok preset d here told]
        cases set : report.text? with
        | none =>
          rw [Report.deliver_of_text?_eq_none d here set]
          exact .inr (.inl ⟨.inr (.inr (.inr rfl)), rfl, rfl⟩)
        | some text =>
          cases wanted : report.path with
          | none =>
            rw [Report.deliver_printed d here set wanted]
            exact .inl rfl
          | some path =>
            obtain ⟨silent, ⟨_, done, _⟩ | ⟨cause, _, outcome, _, same⟩⟩ :=
              Report.deliver_written d here set wanted
            · exact .inl done
            · exact .inr (.inr ⟨⟨cause, outcome⟩, silent, same⟩)

theorem run_withPath {preset : Option String} {first second : List String} {command : Command}
    {output : Output} {path : String} {d : Disk} {here : Location}
    (requested : Request.ofArguments? preset first = some (.run command))
    (again : Request.ofArguments? preset second = some (.run (command.withPath path)))
    (prints : command.output? = some output) (free : output.path = none)
    (done : (run preset first d here).1.code = 0) :
    Delivered d here path (run preset first d here).1.output (run preset second d here) := by
  rw [run_of_request requested] at done ⊢
  rw [run_of_request again]
  cases told : command.report with
  | error fault =>
    rw [Request.perform_error preset d here told] at done
    cases done
  | ok report =>
    obtain ⟨path_eq, reported⟩ := Command.report_withPath prints told
    rw [free] at path_eq
    rw [Request.perform_ok preset d here told] at done ⊢
    rw [Request.perform_ok preset d here (reported path)]
    cases set : report.text? with
    | none =>
      rw [Report.deliver_of_text?_eq_none d here set] at done
      cases done
    | some text =>
      rw [Report.deliver_printed d here set path_eq]
      change Delivered d here path (Outcome.printed text) _
      rw [Outcome.printed_eq_fileText]
      exact Report.deliver_written (r := { report with text? := some text, path := some path })
        d here rfl rfl

/-- A run that is refused prints nothing and leaves the disk as it was, and only a file can make
another run fail. What a command prints of a lesson or a sequence, it saves instead if a path is
added to its arguments. A request for help is no command. -/
theorem output_delivered (preset : Option String) (d : Disk) (here : Location) :
    (∀ args, (run preset args d here).1.Refused →
      (run preset args d here).1.output = "" ∧ (run preset args d here).2 = d) ∧
    (∀ args, (run preset args d here).1.code ≠ 0 → ¬ (run preset args d here).1.Refused →
      (∃ cause, (run preset args d here).1 = .ofFault (.file cause)) ∧
        (run preset args d here).1.output = "" ∧ d.SameFiles (run preset args d here).2) ∧
    ∀ first command output, Request.ofArguments? preset first = some (.run command) →
      command.output? = some output → output.path = none → (run preset first d here).1.code = 0 →
      ∀ path, path ≠ "" →
        (∃ second, Request.AddsPath path first second) ∧
        ∀ second, Request.AddsPath path first second →
          Delivered d here path (run preset first d here).1.output (run preset second d here) := by
  refine ⟨?_, ?_, ?_⟩
  · intro args refused
    obtain done | ⟨_, silent, same⟩ | ⟨⟨cause, outcome⟩, _⟩ := run_cases preset args d here
    · exact absurd done refused.code_ne_zero
    · exact ⟨silent, same⟩
    · exact absurd outcome (refused.ne_file cause)
  · intro args failed other
    obtain done | ⟨refused, _⟩ | file := run_cases preset args d here
    · exact absurd done failed
    · exact absurd refused other
    · exact file
  · intro first command output requested prints free done path present
    refine ⟨Request.exists_addsPath requested, ?_⟩
    intro second adds
    have again := Request.ofArguments?_addsPath requested prints free present adds
    exact run_withPath requested again prints free done

/-- A step that is printed, or saved under a path where nothing is yet. -/
def click : List Given := [.value .step "Click|ID|go", .value .tab "script"]

theorem spelled_click : Given.Spelled click ["-s=Click|ID|go", "--tab=script"] :=
  .letters (.equals rfl rfl) (.equals rfl .nil)

theorem asks_click : AsksForSequence click { tab := .script } := by
  refine ⟨by simp [click], by simp [click, Given.switch?], by decide, ?_, ?_, by decide,
    by simp [click], by decide⟩
  · intro name mem
    obtain rfl : name = "script" := by simpa [click] using mem
    rw [Tab.ofName_eq_ok_iff, Text.caseless_iff, Text.toList_trim]
    decide
  · intro absent
    exact absurd (.tail _ (.head _)) (absent "script")

/-- Arguments without a step are refused, a path that names a folder fails, and a script is saved as
it is printed. -/
theorem click_delivered :
    ((run none ["custom"] .empty []).1.output = "" ∧ (run none ["custom"] .empty []).2 = .empty) ∧
    ((∃ cause, (run none ["show", "-o", "."] .empty []).1 = .ofFault (.file cause)) ∧
      (run none ["show", "-o", "."] .empty []).1.output = "" ∧
      Disk.empty.SameFiles (run none ["show", "-o", "."] .empty []).2) ∧
    (run none ["custom", "-s=Click|ID|go", "--tab=script"] .empty []).1.output =
      "// Click\nclick(go)\n" ∧
    let saved := run none ["custom", "-oout/click.txt", "-s=Click|ID|go", "--tab=script"] .empty []
    Delivered .empty [] "out/click.txt" "// Click\nclick(go)\n" saved ∧ saved.1.code = 0 := by
  obtain ⟨refused, failed, delivered⟩ := output_delivered none .empty []
  have requested : Request.ofArguments? none ["custom", "-s=Click|ID|go", "--tab=script"] = _ :=
    asks_click.ofArguments?_eq (.inl rfl) spelled_click none
  have adds : Request.AddsPath "out/click.txt" ["custom", "-s=Click|ID|go", "--tab=script"]
      ["custom", "-oout/click.txt", "-s=Click|ID|go", "--tab=script"] :=
    ⟨[], .sequence, [], click, _, _, .inl rfl, rfl, spelled_click, rfl,
      .letters (.attached rfl rfl (by decide) (by decide)) spelled_click⟩
  have again := Request.ofArguments?_addsPath requested rfl rfl (by decide) adds
  have done : (run none ["custom", "-s=Click|ID|go", "--tab=script"] .empty []).1.code = 0 := by
    rw [run_of_request requested]
    decide +kernel
  have printed : (run none ["custom", "-s=Click|ID|go", "--tab=script"] .empty []).1.output =
      "// Click\nclick(go)\n" := by
    rw [run_of_request requested]
    decide +kernel
  have saved := (delivered _ _ _ requested rfl rfl done "out/click.txt" (by decide)).2 _ adds
  refine ⟨refused ["custom"] (.inl rfl), failed ["show", "-o", "."] (by decide +kernel) ?_, printed,
    printed ▸ saved, ?_⟩
  · intro other
    exact other.ne_file .isDirectory rfl
  · rw [run_of_request again]
    decide +kernel

theorem Topic.text_ne_empty (preset : Option String) (topic : Topic) : topic.text preset ≠ "" := by
  cases topic <;> simp [text, page, helpSummary]

/-- Help on a command that prints steps is printed, and not saved, whatever path is given. -/
theorem help_not_delivered :
    Request.AddsPath "p" ["custom", "--help"] ["custom", "--help", "-o", "p"] ∧
    (run none ["custom", "--help"] .empty []).1.code = 0 ∧
    let result := run none ["custom", "--help", "-o", "p"] .empty []
    result.1.code = 0 ∧ result.1.output ≠ "" ∧ result.2.text? ["p"] = none ∧
      ¬ Delivered .empty [] "p" (run none ["custom", "--help"] .empty []).1.output result := by
  have plain : Request.ofArguments? none ["custom", "--help"] =
      some (.help (.command .sequence)) := by decide +kernel
  have withPath : Request.ofArguments? none ["custom", "--help", "-o", "p"] =
      some (.help (.command .sequence)) := by decide +kernel
  have word : Given.IsWord "p" := by decide
  rw [run_of_request plain, run_of_request withPath]
  have shown := Topic.text_ne_empty none (.command .sequence)
  exact ⟨⟨[], .sequence, [.flag .help], [], _, _, .inl rfl, rfl, .flag rfl .nil, rfl,
      .flag rfl (.letters (.apart rfl rfl word) .nil)⟩, rfl, rfl, shown, rfl,
    fun delivered => shown delivered.1⟩

end TestScript
