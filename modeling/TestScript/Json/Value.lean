namespace TestScript

/-- A value in the order and with the repetitions of the document. A string is `none` when its
escapes leave half of a surrogate pair alone. It is well formed then, but stands for no text. A
number is kept as it was written. -/
inductive Json where
  | null
  | bool (value : Bool)
  | number (numeral : String)
  | string (text : Option String)
  | array (items : List Json)
  | object (members : List (Option String × Json))

namespace Json

def ofText (text : String) : Json := .string (some text)

def text? : Json → Option String
  | .string text => text
  | _ => none

@[simp] theorem text?_ofText (text : String) : (ofText text).text? = some text := rfl

theorem text?_eq_some_iff {v : Json} {text : String} : v.text? = some text ↔ v = ofText text := by
  cases v <;> simp [text?, ofText]

/-- The text under a key that occurs exactly once. -/
def textAt? (members : List (Option String × Json)) (key : String) : Option String :=
  match members.filter (·.1 == some key) with
  | [(_, value)] => value.text?
  | _ => none

theorem textAt?_eq_some_iff {members : List (Option String × Json)} {key text : String} :
    textAt? members key = some text ↔
      members.filter (·.1 == some key) = [(some key, ofText text)] := by
  unfold textAt?
  split
  · next other value only =>
    have found : (other, value) ∈ members.filter (·.1 == some key) := by simp [only]
    have same : other = some key := by simpa using (List.mem_filter.1 found).2
    simp [only, same, text?_eq_some_iff]
  · next several =>
    constructor
    · nofun
    · intro only
      exact absurd only (several _ _)

end Json

end TestScript
