import TestScript.Command.Outcome
import TestScript.Proofs.Command.Giving

namespace TestScript

namespace Request

/-- What may stand before the word of a command that is run. -/
def Leads (early : List String) : Prop := early = [] ∨ early = ["-v"] ∨ early = ["--verbose"]

instance (early : List String) : Decidable (Leads early) := inferInstanceAs (Decidable (_ ∨ _))

theorem read?_word (preset : Option String) (s : Settings) (name : CommandName)
    (rest : List String) : read? preset s (name.word :: rest) = ofCommand? preset name rest := by
  cases name <;> rfl

theorem ofArguments?_leads (preset : Option String) {early : List String} (leads : Leads early)
    (name : CommandName) (rest : List String) :
    ofArguments? preset (early ++ name.word :: rest) = ofCommand? preset name rest := by
  rcases leads with rfl | rfl | rfl
  · exact read?_word preset _ name rest
  · exact read?_word preset _ name rest
  · exact read?_word preset _ name rest

theorem apply_eq_error {topic : Topic} {s : Settings} {g : Given} {stop : Option Request}
    (h : s.apply topic g = .error stop) :
    stop = none ∨ stop = some (.help topic) ∨ stop = some .version := by
  unfold Settings.apply at h
  split at h
  · cases h; exact .inl rfl
  · cases h; exact .inr (.inl rfl)
  · cases h; exact .inr (.inr rfl)
  · split at h <;> cases h
    exact .inl rfl
  · split at h
    · cases h; exact .inl rfl
    · split at h <;> cases h
      exact .inl rfl

/-- No switch brings about that a command is run. -/
theorem foldlM_apply_ne_run {topic : Topic} {given : List Given} {s : Settings}
    {command : Command} : given.foldlM (Settings.apply topic) s ≠ .error (some (.run command)) := by
  induction given generalizing s with
  | nil => nofun
  | cons g given ih =>
    rw [List.foldlM_cons]
    cases h : s.apply topic g with
    | error stop =>
      rintro ⟨⟩
      have stops := apply_eq_error h
      simp at stops
    | ok next => exact ih

theorem eq_of_mem_beforeCommand {switch : Switch} (h : switch ∈ Switch.beforeCommand) :
    switch = .verbose ∨ switch = .help ∨ switch = .version := by
  simpa [Switch.beforeCommand] using h

/-- Before a command only one switch is taken without an end to the reading, and only once. -/
theorem foldlM_apply_early {topic : Topic} {switch : Switch}
    (early : switch ∈ Switch.beforeCommand) {given : List Given} {s next : Settings}
    (h : (.flag switch :: given).foldlM (Settings.apply topic) s = .ok next) :
    switch = .verbose ∧ .verbose ∉ s.seen ∧
      given.foldlM (Settings.apply topic) (s.see .verbose) = .ok next := by
  rw [List.foldlM_cons] at h
  rcases eq_of_mem_beforeCommand early with rfl | rfl | rfl
  · by_cases again : Switch.verbose ∈ s.seen
    · simp [Settings.apply, again, bind, Except.bind] at h
    · simpa [Settings.apply, again, bind, Except.bind] using h
  · cases h
  · cases h

theorem takesValue_of_mem_beforeCommand {switch : Switch} (h : switch ∈ Switch.beforeCommand) :
    switch.takesValue = false := by
  rcases eq_of_mem_beforeCommand h with rfl | rfl | rfl <;> rfl

theorem letters_early {topic : Topic} {cs : List Char} {s next : Settings}
    (h : (Given.ofLetters Switch.beforeCommand cs).1.foldlM (Settings.apply topic) s = .ok next) :
    cs = [] ∨ cs = ['v'] ∧ .verbose ∉ s.seen ∧ .verbose ∈ next.seen := by
  induction cs generalizing s with
  | nil => exact .inl rfl
  | cons c cs ih =>
    cases found : Switch.beforeCommand.find? (·.letter? = some c) with
    | none => simp [Given.ofLetters, found, Settings.apply, bind, Except.bind] at h
    | some switch =>
      obtain ⟨early, letter⟩ := Given.find?_letter_eq_some found
      simp only [Given.ofLetters, found, takesValue_of_mem_beforeCommand early, Bool.false_eq_true,
        ↓reduceIte] at h
      obtain ⟨rfl, once, h⟩ := foldlM_apply_early early h
      -- another letter could only be the same switch, which has been seen now
      rcases ih h with rfl | ⟨_, twice, _⟩
      · cases h
        exact .inr ⟨by simpa [Switch.letter?, eq_comm] using letter, once, List.mem_cons_self⟩
      · exact absurd List.mem_cons_self twice

theorem named_early {topic : Topic} {name : String} {value : Option String} {s next : Settings}
    (h : (Given.ofNamed Switch.beforeCommand name value).1.foldlM (Settings.apply topic) s =
      .ok next) :
    name = "verbose" ∧ value = none ∧ .verbose ∉ s.seen ∧ .verbose ∈ next.seen := by
  cases found : Switch.beforeCommand.find? (·.word = name) with
  | none => simp [Given.ofNamed, found, Settings.apply, bind, Except.bind] at h
  | some switch =>
    obtain ⟨early, rfl⟩ := Given.find?_word_eq_some found
    cases value with
    | none =>
      simp only [Given.ofNamed, found, takesValue_of_mem_beforeCommand early, Bool.false_eq_true,
        ↓reduceIte] at h
      obtain ⟨rfl, once, h⟩ := foldlM_apply_early early h
      cases h
      exact ⟨rfl, rfl, once, List.mem_cons_self⟩
    | some text =>
      simp [Given.ofNamed, found, takesValue_of_mem_beforeCommand early, Settings.apply, bind,
        Except.bind] at h

theorem ofHelp?_ne_run {args : List String} {command : Command} :
    ofHelp? args ≠ some (.run command) := by
  unfold ofHelp?
  split
  · simp
  · split <;> simp
  · simp

theorem word_ofWord? {word : String} {name : CommandName} (h : CommandName.ofWord? word = some name) :
    name.word = word := by
  simpa using List.find?_some h

/-- A command is run only if its word stands among the arguments, and before it no more than leads
to it. -/
theorem exists_leads_of_read? {preset : Option String} {s : Settings} {args : List String}
    {command : Command} (h : read? preset s args = some (.run command)) :
    ∃ early name rest, args = early ++ CommandName.word name :: rest ∧ Leads early ∧
      (.verbose ∈ s.seen → early = []) := by
  induction args generalizing s with
  | nil => cases h
  | cons text rest ih =>
    have text_eq := Argument.toText_ofText text
    rw [read?] at h
    cases arg : Argument.ofText text with
    | word word =>
      simp only [arg] at h
      split at h
      · exact absurd h ofHelp?_ne_run
      · obtain ⟨name, found, _⟩ := Option.bind_eq_some_iff.1 h
        rw [arg] at text_eq
        refine ⟨[], name, rest, ?_, .inl rfl, fun _ => rfl⟩
        rw [word_ofWord? found, ← text_eq]
        rfl
    | dashes => simp [arg] at h
    | named name value =>
      simp only [arg] at h
      split at h
      · next taken =>
        subst h
        exact absurd taken foldlM_apply_ne_run
      · next next taken =>
        obtain ⟨rfl, rfl, once, seen⟩ := named_early taken
        -- the one switch that is allowed here has been seen, so the command follows at once
        obtain ⟨early, command, later, rfl, _, nothing⟩ := ih h
        obtain rfl := nothing seen
        rw [arg] at text_eq
        exact ⟨["--verbose"], command, later, by rw [← text_eq]; rfl, .inr (.inr rfl),
          fun again => absurd again once⟩
    | letters cs =>
      simp only [arg] at h
      split at h
      · next taken =>
        subst h
        exact absurd taken foldlM_apply_ne_run
      · next next taken =>
        obtain rfl | ⟨rfl, once, seen⟩ := letters_early taken
        · exact absurd rfl (Argument.letters_ne_nil arg)
        · obtain ⟨early, command, later, rfl, _, nothing⟩ := ih h
          obtain rfl := nothing seen
          rw [arg] at text_eq
          exact ⟨["-v"], command, later, by rw [← text_eq]; rfl, .inr (.inl rfl),
            fun again => absurd again once⟩

/-- After the word of a command, what is spelled decides about the command that is run. -/
theorem ofCommand?_eq_run_iff {preset : Option String} {name : CommandName} {args : List String}
    {command : Command} :
    ofCommand? preset name args = some (.run command) ↔
      ∃ given, Given.Within name.switches given ∧ Given.Spelled given args ∧
        (∀ g ∈ given, g.Accepted) ∧ given.Pairwise Given.Compatible ∧
        (Settings.ofGiven given).command? preset name = some command := by
  constructor
  · intro h
    unfold ofCommand? at h
    split at h
    · next taken =>
      subst h
      exact absurd taken foldlM_apply_ne_run
    · next settings taken =>
      obtain ⟨accepted, compatible, rfl⟩ := Settings.foldlM_apply_iff.1 taken
      have understood : .refused ∉ Given.ofArguments name.switches none args :=
        fun refused => accepted _ refused
      obtain ⟨within, spelled⟩ := (Given.ofArguments_eq_iff understood).1 rfl
      exact ⟨_, within, spelled, accepted, compatible, by simpa using h⟩
  · rintro ⟨given, within, spelled, accepted, compatible, told⟩
    have taken : given.foldlM (Settings.apply (.command name)) {} = _ :=
      Settings.foldlM_apply_iff.2 ⟨accepted, compatible, rfl⟩
    rw [ofCommand?, Given.ofArguments_of_spelled spelled within, taken]
    simp [told]

end Request

/-- Steps are given, and besides no more than the output wants: at most one tab, which has a name,
at most one path, the format, and that the program may be verbose. -/
structure AsksForSequence (given : List Given) (output : Output) : Prop where
  known : ∀ g ∈ given, g = .flag .verbose ∨ g = .flag .json ∨
    ∃ text, g = .value .step text ∨ g = .value .tab text ∨ g = .value .output text
  once : given.Pairwise fun g other => g.switch? = other.switch? → g.switch? = some .step
  steps : Given.values .step given ≠ []
  tab : ∀ name, .value .tab name ∈ given → Tab.ofName name = .ok output.tab
  home : (∀ name, .value .tab name ∉ given) → output.tab = .practice
  json : output.json = true ↔ .flag .json ∈ given
  path : ∀ path, .value .output path ∈ given ↔ output.path = some path
  present : output.path ≠ some ""

namespace AsksForSequence

variable {given : List Given} {output : Output} (asks : AsksForSequence given output)
include asks

theorem within : Given.Within CommandName.sequence.switches given := by
  intro g mem
  obtain rfl | rfl | ⟨text, rfl | rfl | rfl⟩ := asks.known g mem
  all_goals exact ⟨_, by decide, rfl⟩

theorem accepted : ∀ g ∈ given, g.Accepted := by
  intro g mem
  obtain rfl | rfl | ⟨text, rfl | rfl | rfl⟩ := asks.known g mem
  · simp [Given.Accepted]
  · simp [Given.Accepted]
  · simp [Given.Accepted, Switch.takesValue]
  · exact ⟨_, asks.tab text mem⟩
  · rintro rfl
    exact asks.present ((asks.path "").1 mem)

theorem compatible : given.Pairwise Given.Compatible := by
  refine asks.once.imp_of_mem ?_
  intro g other _ mem once same
  -- of all that may be given, only a spec has this switch
  have step := same ▸ once same
  obtain rfl | rfl | ⟨text, rfl | rfl | rfl⟩ := asks.known other mem
  all_goals cases step
  exact ⟨text, rfl⟩

theorem json_mem_seen_iff : .json ∈ (Settings.ofGiven given).seen ↔ output.json = true := by
  rw [Settings.mem_seen_ofGiven, asks.json]
  constructor
  · rintro ⟨g, mem, told⟩
    obtain rfl | rfl | ⟨text, rfl | rfl | rfl⟩ := asks.known g mem
    all_goals cases told
    exact mem
  · intro mem
    exact ⟨_, mem, rfl⟩

theorem path_ofGiven : (Settings.ofGiven given).path = output.path := by
  cases last : (Given.values .output given).getLast? with
  | none =>
    have absent := Given.getLast?_values_eq_none_iff.1 last
    cases wanted : output.path with
    | none => exact last
    | some path => exact absurd ((asks.path path).2 wanted) (absent path)
  | some path =>
    rw [(asks.path path).1 (Given.mem_of_getLast?_values last)]
    exact last

theorem tab_ofGiven : (Settings.ofGiven given).tab.getD .practice = output.tab := by
  cases last : (Given.values .tab given).getLast? with
  | none =>
    have home := asks.home (Given.getLast?_values_eq_none_iff.1 last)
    simp [Settings.ofGiven, last, home]
  | some name =>
    have named := asks.tab name (Given.mem_of_getLast?_values last)
    simp [Settings.ofGiven, last, named, Except.toOption]

theorem output_ofGiven : (Settings.ofGiven given).output .practice = output := by
  simp [Settings.output, asks.tab_ofGiven, asks.path_ofGiven, asks.json_mem_seen_iff]

/-- However it is spelled, what is asked for is the sequence of the specs. -/
theorem ofArguments?_eq {early args : List String} (leads : Request.Leads early)
    (spelled : Given.Spelled given args) (preset : Option String) :
    Request.ofArguments? preset (early ++ CommandName.sequence.word :: args) =
      some (.run (.printSequence (Given.values .step given) output)) := by
  rw [Request.ofArguments?_leads preset leads]
  refine Request.ofCommand?_eq_run_iff.2
    ⟨given, asks.within, spelled, asks.accepted, asks.compatible, ?_⟩
  have specs : (Settings.ofGiven given).specs = Given.values .step given := rfl
  simp [Settings.command?, specs, asks.steps, asks.output_ofGiven]

end AsksForSequence

end TestScript
