import Mathlib.Data.List.Induction
import TestScript.Command.Request
import TestScript.Proofs.Command.Reading

namespace TestScript

namespace Given

/-- The value of this switch, if it is the one that is given. -/
def value? (switch : Switch) : Given → Option String
  | .value other text => if other = switch then some text else none
  | _ => none

/-- The values of a switch, in the order in which they are given. -/
def values (switch : Switch) (given : List Given) : List String :=
  given.filterMap (value? switch)

theorem values_append (switch : Switch) (given more : List Given) :
    values switch (given ++ more) = values switch given ++ values switch more :=
  List.filterMap_append

theorem values_cons_of_ne {switch other : Switch} (differs : other ≠ switch) (text : String)
    (given : List Given) : values switch (.value other text :: given) = values switch given := by
  simp [values, value?, differs]

theorem values_cons_self (switch : Switch) (text : String) (given : List Given) :
    values switch (.value switch text :: given) = text :: values switch given := by
  simp [values, value?]

theorem mem_values {switch : Switch} {text : String} {given : List Given} :
    text ∈ values switch given ↔ .value switch text ∈ given := by
  simp only [values, List.mem_filterMap]
  constructor
  · rintro ⟨g, mem, told⟩
    cases g with
    | flag | refused => cases told
    | value other text' =>
      obtain ⟨rfl, rfl⟩ : other = switch ∧ text' = text := by simpa [value?] using told
      exact mem
  · intro mem
    exact ⟨_, mem, by simp [value?]⟩

theorem getLast?_values_eq_none_iff {switch : Switch} {given : List Given} :
    (values switch given).getLast? = none ↔ ∀ text, .value switch text ∉ given := by
  simp only [List.getLast?_eq_none_iff, List.eq_nil_iff_forall_not_mem, mem_values]

theorem mem_of_getLast?_values {switch : Switch} {text : String} {given : List Given}
    (h : (values switch given).getLast? = some text) : .value switch text ∈ given :=
  mem_values.1 (List.mem_of_getLast? h)

/-- What stands there makes sense, and the reading goes on after it. -/
def Accepted : Given → Prop
  | .refused => False
  | .flag switch => switch ≠ .help ∧ switch ≠ .version
  | .value .tab text => ∃ tab, Tab.ofName text = .ok tab
  | .value .output text => text ≠ ""
  | .value switch _ => switch.takesValue = true

/-- The second may be given after the first. -/
def Compatible (first second : Given) : Prop :=
  first.switch? = second.switch? → ∃ spec, second = .value .step spec

end Given

namespace Settings

/-- The settings after all that is given. -/
def ofGiven (given : List Given) : Settings where
  seen := (given.filterMap Given.switch?).reverse
  lesson := (Given.values .lesson given).getLast?
  tab := (Given.values .tab given).getLast?.bind fun text => (Tab.ofName text).toOption
  specs := Given.values .step given
  path := (Given.values .output given).getLast?

theorem mem_seen_ofGiven {given : List Given} {switch : Switch} :
    switch ∈ (ofGiven given).seen ↔ ∃ g ∈ given, g.switch? = some switch := by
  simp [ofGiven]

theorem compatible_flag_iff {given : List Given} {switch : Switch} :
    (∀ other ∈ given, other.Compatible (.flag switch)) ↔ switch ∉ (ofGiven given).seen := by
  simp [mem_seen_ofGiven, Given.Compatible, Given.switch?]

theorem compatible_value_iff {given : List Given} {switch : Switch} {text : String} :
    (∀ other ∈ given, other.Compatible (.value switch text)) ↔
      ¬ (switch ∈ (ofGiven given).seen ∧ switch ≠ .step) := by
  rw [mem_seen_ofGiven]
  by_cases step : switch = .step
  · simp [step, Given.Compatible]
  · simp [step, Given.Compatible, Given.switch?]

theorem ofGiven_concat_flag (given : List Given) (switch : Switch) :
    ofGiven (given ++ [.flag switch]) = (ofGiven given).see switch := by
  simp [ofGiven, Given.values, Given.value?, Given.switch?, see]

theorem take?_ofGiven_iff {given : List Given} {switch : Switch} {text : String} {next : Settings} :
    ((ofGiven given).see switch).take? text switch = some next ↔
      (Given.value switch text).Accepted ∧ next = ofGiven (given ++ [.value switch text]) := by
  cases switch with
  | lesson | step =>
    simp [take?, ofGiven, Given.values, Given.value?, Given.switch?, see, Given.Accepted,
      Switch.takesValue, eq_comm]
  | tab =>
    cases tab : Tab.ofName text <;>
      simp [take?, ofGiven, Given.values, Given.value?, Given.switch?, see, Given.Accepted, tab,
        Except.toOption, eq_comm]
  | output =>
    by_cases empty : text = "" <;>
      simp [take?, ofGiven, Given.values, Given.value?, Given.switch?, see, Given.Accepted, empty,
        eq_comm]
  | verbose | help | version | json => simp [take?, Given.Accepted, Switch.takesValue]

theorem apply_ofGiven_iff {topic : Topic} {given : List Given} {g : Given} {next : Settings} :
    (ofGiven given).apply topic g = .ok next ↔
      g.Accepted ∧ (∀ other ∈ given, other.Compatible g) ∧ next = ofGiven (given ++ [g]) := by
  cases g with
  | refused => simp [apply, Given.Accepted]
  | flag switch =>
    rw [compatible_flag_iff, ofGiven_concat_flag]
    by_cases again : switch ∈ (ofGiven given).seen <;> cases switch <;>
      simp [apply, Given.Accepted, again, eq_comm]
  | value switch text =>
    rw [compatible_value_iff]
    by_cases again : switch ∈ (ofGiven given).seen ∧ switch ≠ .step
    · simp [apply, again]
    · rw [apply, if_neg again]
      have taken : ((ofGiven given).see switch).take? text switch = some next ↔ _ :=
        take?_ofGiven_iff
      split
      · next found h =>
        rw [h] at taken
        simpa [again] using taken
      · next h =>
        rw [h] at taken
        simpa [again] using taken

/-- All that is given is taken if and only if each part makes sense and may follow those before it.
-/
theorem foldlM_apply_iff {topic : Topic} {given : List Given} {settings : Settings} :
    given.foldlM (apply topic) {} = .ok settings ↔
      (∀ g ∈ given, g.Accepted) ∧ given.Pairwise Given.Compatible ∧ settings = ofGiven given := by
  induction given using List.reverseRecOn generalizing settings with
  | nil =>
    have start : ofGiven [] = {} := rfl
    simp [start, pure, Except.pure, eq_comm]
  | append_singleton given g ih =>
    have concat : (given ++ [g]).foldlM (apply topic) {} = .ok settings ↔
        ∃ before, given.foldlM (apply topic) {} = .ok before ∧
          before.apply topic g = .ok settings := by
      rw [List.foldlM_append, Except.bind_eq_ok_iff]
      simp
    have pairs : (given ++ [g]).Pairwise Given.Compatible ↔
        given.Pairwise Given.Compatible ∧ ∀ other ∈ given, other.Compatible g := by
      simp [List.pairwise_append]
    rw [concat, pairs, List.forall_mem_append, List.forall_mem_singleton]
    constructor
    · rintro ⟨before, taken, next⟩
      obtain ⟨accepted, compatible, rfl⟩ := ih.1 taken
      obtain ⟨last, follows, rfl⟩ := apply_ofGiven_iff.1 next
      exact ⟨⟨accepted, last⟩, ⟨compatible, follows⟩, rfl⟩
    · rintro ⟨⟨accepted, last⟩, ⟨compatible, follows⟩, rfl⟩
      exact ⟨_, ih.2 ⟨accepted, compatible, rfl⟩, apply_ofGiven_iff.2 ⟨last, follows, rfl⟩⟩

end Settings

end TestScript
