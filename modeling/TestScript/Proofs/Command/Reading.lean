import TestScript.Command.Argument

/-!
Arguments are read as the switches that they spell, and every list of arguments that is understood
is one of the spellings of what it is read as. Which spelling is used, and whether switches share an
argument, makes no difference.
-/

namespace TestScript

namespace Switch

theorem word_inj {s t : Switch} (h : s.word = t.word) : s = t := by
  cases s <;> cases t <;> simp [word] at h ⊢

theorem letter?_inj {s t : Switch} {c : Char} (hs : s.letter? = some c) (ht : t.letter? = some c) :
    s = t := by
  rw [← hs] at ht
  cases s <;> cases t <;> simp [letter?] at hs ht ⊢

theorem letter?_ne_dash {s : Switch} {c : Char} (h : s.letter? = some c) : c ≠ '-' := by
  rintro rfl
  cases s <;> simp [letter?] at h

/-- Every switch of every command. -/
def all : List Switch := [.verbose, .help, .version, .json, .lesson, .tab, .step, .output]

theorem mem_all (s : Switch) : s ∈ all := by cases s <;> decide

theorem find?_of_unique {known : List Switch} {p : Switch → Bool} {s : Switch} (mem : s ∈ known)
    (holds : p s = true) (unique : ∀ t, p t = true → t = s) : known.find? p = some s := by
  cases found : known.find? p with
  | none => exact absurd holds (List.find?_eq_none.1 found s mem)
  | some t => rw [unique t (List.find?_some found)]

theorem find?_word {known : List Switch} {s : Switch} (mem : s ∈ known) :
    known.find? (·.word = s.word) = some s :=
  find?_of_unique mem (by simp) fun _ h => word_inj (by simpa using h)

theorem find?_letter {known : List Switch} {s : Switch} {c : Char} (mem : s ∈ known)
    (letter : s.letter? = some c) : known.find? (·.letter? = some c) = some s :=
  find?_of_unique mem (by simpa using letter) fun _ h => letter?_inj (by simpa using h) letter

end Switch

namespace Argument

/-- The text that is read as this argument. -/
def toText : Argument → String
  | .word text => text
  | .dashes => "--"
  | .named name none => "--" ++ name
  | .named name (some value) => "--" ++ name ++ "=" ++ value
  | .letters cs => String.ofList ('-' :: cs)

theorem toText_named? (cs : List Char) : (named? cs).toText = String.ofList ('-' :: '-' :: cs) := by
  have split := List.takeWhile_append_dropWhile (p := (· != '=')) (l := cs)
  unfold named?
  split
  · simp [toText, ← String.toList_inj]
  · next c value rest =>
    have equals : c = '=' := by
      have first := List.head?_dropWhile_not (· != '=') cs
      simpa [rest] using first
    rw [rest, equals] at split
    simpa [toText, ← String.toList_inj] using split

theorem toText_ofText (text : String) : (ofText text).toText = text := by
  unfold ofText
  split
  · next chars => simp [toText, ← String.toList_inj, chars]
  · next chars => rw [toText_named?, ← chars, String.ofList_toList]
  · next chars => rw [toText, ← chars, String.ofList_toList]
  · rfl

theorem letters_ne_nil {text : String} {letters : List Char} (h : ofText text = .letters letters) :
    letters ≠ [] := by
  unfold ofText named? at h
  split at h
  · cases h
  · split at h <;> cases h
  · cases h
    exact List.cons_ne_nil _ _
  · cases h

theorem ofText_word (s : Switch) : ofText ("--" ++ s.word) = .named s.word none := by
  cases s <;> decide

theorem ofText_word_equals (s : Switch) (text : String) :
    ofText ("--" ++ s.word ++ "=" ++ text) = .named s.word (some text) := by
  cases s <;> simp [ofText, Switch.word, named?]

theorem ofText_letters {c : Char} (h : c ≠ '-') (cs : List Char) :
    ofText (String.ofList ('-' :: c :: cs)) = .letters (c :: cs) := by
  simp [ofText, h]

end Argument

namespace Given

/-- The switch that is given, if it was understood. -/
def switch? : Given → Option Switch
  | .flag switch | .value switch _ => some switch
  | .refused => none

/-- Only these switches are given, and nothing that is not understood. -/
def Within (known : List Switch) (given : List Given) : Prop :=
  ∀ g ∈ given, ∃ switch ∈ known, g.switch? = some switch

section

variable {known : List Switch} {given more : List Given}

@[simp] theorem within_nil : Within known [] := nofun

@[simp] theorem within_flag {switch : Switch} :
    Within known (.flag switch :: given) ↔ switch ∈ known ∧ Within known given := by
  simp [Within, switch?]

@[simp] theorem within_value {switch : Switch} {text : String} :
    Within known (.value switch text :: given) ↔ switch ∈ known ∧ Within known given := by
  simp [Within, switch?]

@[simp] theorem within_append :
    Within known (given ++ more) ↔ Within known given ∧ Within known more :=
  List.forall_mem_append

end

theorem withoutEquals_of_head? {cs : List Char} (h : cs.head? ≠ some '=') :
    withoutEquals cs = cs := by
  unfold withoutEquals
  split
  · simp at h
  · rfl

variable {known : List Switch}

theorem ofArguments_waiting {text : String} (h : IsWord text) (switch : Switch)
    (rest : List String) :
    ofArguments known (some switch) (text :: rest) =
      .value switch text :: ofArguments known none rest := by
  have word : Argument.ofText text = .word text := h
  simp [ofArguments, word]

theorem ofArguments_named {text name : String} {value : Option String}
    (h : Argument.ofText text = .named name value) (rest : List String) :
    ofArguments known none (text :: rest) =
      (ofNamed known name value).1 ++ ofArguments known (ofNamed known name value).2 rest := by
  simp [ofArguments, h]

theorem ofArguments_letters {text : String} {cs : List Char}
    (h : Argument.ofText text = .letters cs) (rest : List String) :
    ofArguments known none (text :: rest) =
      (ofLetters known cs).1 ++ ofArguments known (ofLetters known cs).2 rest := by
  simp [ofArguments, h]

/-- Letters give their switches, the last one with the next argument if that is its value. -/
theorem ofArguments_lettered {given : List Given} {letters : List Char} {next : Option String}
    (h : Lettered given letters next) (within : Within known given) (rest : List String) :
    (ofLetters known letters).1 ++
        ofArguments known (ofLetters known letters).2 (next.toList ++ rest) =
      given ++ ofArguments known none rest := by
  induction h with
  | last letter plain =>
    have mem := (within_flag.1 within).1
    simp [ofLetters, Switch.find?_letter mem letter, plain]
  | flag letter plain _ ih =>
    obtain ⟨mem, within⟩ := within_flag.1 within
    simp [ofLetters, Switch.find?_letter mem letter, plain, ih within]
  | attached letter takes present head =>
    have mem := (within_value.1 within).1
    simp [ofLetters, Switch.find?_letter mem letter, takes, present, withoutEquals_of_head? head]
  | equals letter takes =>
    have mem := (within_value.1 within).1
    simp [ofLetters, Switch.find?_letter mem letter, takes, withoutEquals]
  | apart letter takes word =>
    have mem := (within_value.1 within).1
    simp [ofLetters, Switch.find?_letter mem letter, takes, ofArguments_waiting word]

theorem Lettered.exists_cons {given : List Given} {letters : List Char} {next : Option String}
    (h : Lettered given letters next) : ∃ c cs, letters = c :: cs ∧ c ≠ '-' := by
  cases h with
  | last letter | flag letter | attached letter | equals letter | apart letter =>
    exact ⟨_, _, rfl, Switch.letter?_ne_dash letter⟩

theorem ofArguments_of_spelled {given : List Given} {args : List String} (h : Spelled given args)
    (within : Within known given) : ofArguments known none args = given := by
  induction h with
  | nil => rfl
  | dashes => rfl
  | @flag switch given rest plain _ ih =>
    obtain ⟨mem, within⟩ := within_flag.1 within
    rw [ofArguments_named (Argument.ofText_word switch)]
    simp [ofNamed, Switch.find?_word mem, plain, ih within]
  | @equals switch text given rest takes _ ih =>
    obtain ⟨mem, within⟩ := within_value.1 within
    rw [ofArguments_named (Argument.ofText_word_equals switch text)]
    simp [ofNamed, Switch.find?_word mem, takes, ih within]
  | @apart switch text given rest takes word _ ih =>
    obtain ⟨mem, within⟩ := within_value.1 within
    rw [ofArguments_named (Argument.ofText_word switch)]
    simp [ofNamed, Switch.find?_word mem, takes, ofArguments_waiting word, ih within]
  | @letters first letters next given rest lettered _ ih =>
    obtain ⟨withinFirst, within⟩ := within_append.1 within
    obtain ⟨c, cs, rfl, differs⟩ := lettered.exists_cons
    rw [ofArguments_letters (Argument.ofText_letters differs cs),
      ofArguments_lettered lettered withinFirst rest, ih within]

/-- Letters for switches in their order, the last of which may wait for its value. -/
def LetteredBefore (given : List Given) (letters : List Char) : Option Switch → Prop
  | none => Lettered given letters none
  | some switch => ∀ text, IsWord text → Lettered (given ++ [.value switch text]) letters (some text)

/-- Arguments for switches in their order, the first of which may be the value of a switch that
waits for it. -/
def SpelledAfter (given : List Given) (args : List String) : Option Switch → Prop
  | none => Spelled given args
  | some switch => ∃ text later rest, IsWord text ∧ Spelled later rest ∧
      given = .value switch text :: later ∧ args = text :: rest

theorem LetteredBefore.flag {given : List Given} {letters : List Char} {waiting : Option Switch}
    (h : LetteredBefore given letters waiting) {switch : Switch} {letter : Char}
    (spells : switch.letter? = some letter) (plain : switch.takesValue = false) :
    LetteredBefore (.flag switch :: given) (letter :: letters) waiting := by
  cases waiting with
  | none => exact Lettered.flag spells plain h
  | some other => exact fun text word => Lettered.flag spells plain (h text word)

theorem LetteredBefore.spelled {first given : List Given} {letters : List Char}
    {rest : List String} {waiting : Option Switch} (h : LetteredBefore first letters waiting)
    (after : SpelledAfter given rest waiting) :
    Spelled (first ++ given) (String.ofList ('-' :: letters) :: rest) := by
  cases waiting with
  | none => exact .letters h after
  | some switch =>
    obtain ⟨text, later, rest, word, spelled, rfl, rfl⟩ := after
    simpa using Spelled.letters (h text word) spelled

theorem find?_letter_eq_some {letter : Char} {switch : Switch}
    (h : known.find? (·.letter? = some letter) = some switch) :
    switch ∈ known ∧ switch.letter? = some letter :=
  ⟨List.mem_of_find?_eq_some h, by simpa using List.find?_some h⟩

theorem find?_word_eq_some {name : String} {switch : Switch}
    (h : known.find? (·.word = name) = some switch) : switch ∈ known ∧ switch.word = name :=
  ⟨List.mem_of_find?_eq_some h, by simpa using List.find?_some h⟩

theorem lettered_ofLetters {letters : List Char} (present : letters ≠ [])
    (understood : .refused ∉ (ofLetters known letters).1) :
    Within known (ofLetters known letters).1 ∧
    (∀ switch ∈ (ofLetters known letters).2, switch ∈ known) ∧
    LetteredBefore (ofLetters known letters).1 letters (ofLetters known letters).2 := by
  fun_induction ofLetters known letters with
  | case1 => contradiction
  | case2 letter rest unknown => simp at understood
  | case3 letter switch found takes =>
    obtain ⟨mem, spells⟩ := find?_letter_eq_some found
    refine ⟨within_nil, ?_, fun text word => .apart spells takes word⟩
    rintro _ ⟨⟩
    exact mem
  | case4 letter rest switch found takes later =>
    obtain ⟨mem, spells⟩ := find?_letter_eq_some found
    refine ⟨within_value.2 ⟨mem, within_nil⟩, by simp, ?_⟩
    -- an equals sign before the value is not part of it
    by_cases equals : rest.head? = some '='
    · obtain ⟨value, rfl⟩ := List.head?_eq_some_iff.1 equals
      have spelled : Lettered [.value switch (String.ofList value)]
          (letter :: '=' :: (String.ofList value).toList) none :=
        .equals spells takes
      simpa [LetteredBefore, withoutEquals] using spelled
    · have attached : Lettered [.value switch (String.ofList rest)]
          (letter :: (String.ofList rest).toList) none :=
        .attached spells takes (by simpa using later) (by simpa using equals)
      simpa [LetteredBefore, withoutEquals_of_head? equals] using attached
  | case5 letter rest switch found takes more waiting h ih =>
    obtain ⟨mem, spells⟩ := find?_letter_eq_some found
    have plain : switch.takesValue = false := by simpa using takes
    by_cases last : rest = []
    · subst last
      cases h
      exact ⟨within_flag.2 ⟨mem, within_nil⟩, by simp, .last spells plain⟩
    · rw [h] at ih
      obtain ⟨within, known_waiting, spelled⟩ := ih last (by simpa using understood)
      exact ⟨within_flag.2 ⟨mem, within⟩, known_waiting, spelled.flag spells plain⟩

theorem spelled_ofNamed {name : String} {value : Option String}
    (understood : .refused ∉ (ofNamed known name value).1) :
    Within known (ofNamed known name value).1 ∧
    (∀ switch ∈ (ofNamed known name value).2, switch ∈ known) ∧
    ∀ given rest, SpelledAfter given rest (ofNamed known name value).2 →
      Spelled ((ofNamed known name value).1 ++ given) ((Argument.named name value).toText :: rest) := by
  cases found : known.find? (·.word = name) with
  | none => simp [ofNamed, found] at understood
  | some switch =>
    obtain ⟨mem, rfl⟩ := find?_word_eq_some found
    cases value with
    | none =>
      cases takes : switch.takesValue with
      | false =>
        simp only [ofNamed, found, takes, Bool.false_eq_true, ↓reduceIte]
        exact ⟨within_flag.2 ⟨mem, within_nil⟩, nofun, fun given rest after => .flag takes after⟩
      | true =>
        simp only [ofNamed, found, takes, ↓reduceIte]
        refine ⟨within_nil, fun _ h => Option.some.inj h ▸ mem, ?_⟩
        rintro given args ⟨text, later, rest, word, spelled, rfl, rfl⟩
        exact .apart takes word spelled
    | some text =>
      cases takes : switch.takesValue with
      | false => simp [ofNamed, found, takes] at understood
      | true =>
        simp only [ofNamed, found, takes, ↓reduceIte]
        exact ⟨within_value.2 ⟨mem, within_nil⟩, nofun, fun given rest after => .equals takes after⟩

/-- What is understood of arguments is given by switches that are known, and spelled by them. -/
theorem spelledAfter_ofArguments {args : List String} {waiting : Option Switch}
    (hw : ∀ switch ∈ waiting, switch ∈ known)
    (understood : .refused ∉ ofArguments known waiting args) :
    Within known (ofArguments known waiting args) ∧
      SpelledAfter (ofArguments known waiting args) args waiting := by
  induction args generalizing waiting with
  | nil =>
    cases waiting with
    | none => exact ⟨within_nil, .nil⟩
    | some switch => simp [ofArguments] at understood
  | cons text rest ih =>
    have text_eq := Argument.toText_ofText text
    cases waiting with
    | some switch =>
      cases arg : Argument.ofText text with
      | word content =>
        obtain rfl : content = text := by rwa [arg] at text_eq
        rw [ofArguments_waiting arg] at understood ⊢
        obtain ⟨within, after⟩ := @ih none nofun (by simpa using understood)
        exact ⟨within_value.2 ⟨hw switch rfl, within⟩, content, _, rest, arg, after, rfl, rfl⟩
      | dashes | named | letters => simp [ofArguments, arg] at understood
    | none =>
      cases arg : Argument.ofText text with
      | word content => simp [ofArguments, arg] at understood
      | dashes =>
        obtain rfl : rest = [] := by
          cases rest with
          | nil => rfl
          | cons => simp [ofArguments, arg] at understood
        obtain rfl : "--" = text := by rwa [arg] at text_eq
        exact ⟨within_nil, .dashes⟩
      | named name value =>
        rw [ofArguments_named arg] at understood ⊢
        simp only [List.mem_append, not_or] at understood
        obtain ⟨withinFirst, known_waiting, spelled⟩ := spelled_ofNamed understood.1
        obtain ⟨within, after⟩ := ih known_waiting understood.2
        rw [arg] at text_eq
        rw [← text_eq]
        exact ⟨within_append.2 ⟨withinFirst, within⟩, spelled _ _ after⟩
      | letters cs =>
        rw [ofArguments_letters arg] at understood ⊢
        simp only [List.mem_append, not_or] at understood
        obtain ⟨withinFirst, known_waiting, spelled⟩ :=
          lettered_ofLetters (Argument.letters_ne_nil arg) understood.1
        obtain ⟨within, after⟩ := ih known_waiting understood.2
        rw [arg] at text_eq
        rw [← text_eq]
        exact ⟨within_append.2 ⟨withinFirst, within⟩, spelled.spelled after⟩

/-- Arguments are understood if and only if they spell switches that are known, and those are what
they are read as. -/
theorem ofArguments_eq_iff {given : List Given} {args : List String} (understood : .refused ∉ given) :
    ofArguments known none args = given ↔ Within known given ∧ Spelled given args := by
  constructor
  · rintro rfl
    exact spelledAfter_ofArguments nofun understood
  · rintro ⟨within, spelled⟩
    exact ofArguments_of_spelled spelled within

theorem Lettered.within_all {given : List Given} {letters : List Char} {next : Option String}
    (h : Lettered given letters next) : Within Switch.all given := by
  induction h with
  | last => exact within_flag.2 ⟨Switch.mem_all _, within_nil⟩
  | flag _ _ _ ih => exact within_flag.2 ⟨Switch.mem_all _, ih⟩
  | attached | equals | apart => exact within_value.2 ⟨Switch.mem_all _, within_nil⟩

theorem Spelled.within_all {given : List Given} {args : List String} (h : Spelled given args) :
    Within Switch.all given := by
  induction h with
  | nil | dashes => exact within_nil
  | flag _ _ ih => exact within_flag.2 ⟨Switch.mem_all _, ih⟩
  | equals _ _ ih | apart _ _ _ ih => exact within_value.2 ⟨Switch.mem_all _, ih⟩
  | letters lettered _ ih => exact within_append.2 ⟨lettered.within_all, ih⟩

theorem Lettered.takesValue {given : List Given} {letters : List Char} {next : Option String}
    (h : Lettered given letters next) {switch : Switch} (mem : .flag switch ∈ given) :
    switch.takesValue = false := by
  induction h with
  | last _ plain =>
    cases List.mem_singleton.1 mem
    exact plain
  | flag _ plain _ ih =>
    obtain same | mem := List.mem_cons.1 mem
    · cases same
      exact plain
    · exact ih mem
  | attached | equals | apart => simp at mem

/-- A switch that takes a value is not spelled without one. -/
theorem Spelled.takesValue {given : List Given} {args : List String} (h : Spelled given args)
    {switch : Switch} (mem : .flag switch ∈ given) : switch.takesValue = false := by
  induction h with
  | nil | dashes => cases mem
  | flag plain _ ih =>
    obtain same | mem := List.mem_cons.1 mem
    · cases same
      exact plain
    · exact ih mem
  | equals _ _ ih => exact ih (by simpa using mem)
  | apart _ _ _ ih => exact ih (by simpa using mem)
  | letters lettered _ ih =>
    obtain mem | mem := List.mem_append.1 mem
    · exact lettered.takesValue mem
    · exact ih mem

/-- Arguments spell one list of switches at most. -/
theorem Spelled.unique {given other : List Given} {args : List String} (h : Spelled given args)
    (h' : Spelled other args) : given = other := by
  rw [← ofArguments_of_spelled h h.within_all, ofArguments_of_spelled h' h'.within_all]

end Given

end TestScript
