namespace TestScript.Text

/-- First and last code point of each run of characters that have the Unicode property White_Space.
-/
def blankRanges : List (Nat × Nat) :=
  [(0x0009, 0x000D), (0x0020, 0x0020), (0x0085, 0x0085), (0x00A0, 0x00A0), (0x1680, 0x1680),
   (0x2000, 0x200A), (0x2028, 0x2029), (0x202F, 0x202F), (0x205F, 0x205F), (0x3000, 0x3000)]

def isBlank (c : Char) : Bool :=
  blankRanges.any fun (first, last) => first ≤ c.toNat && c.toNat ≤ last

/-- The characters without the white space that ends them. -/
def withoutBlankEnd (cs : List Char) : List Char :=
  (cs.reverse.dropWhile isBlank).reverse

def trimEnd (s : String) : String :=
  String.ofList (withoutBlankEnd s.toList)

/-- The text without the white space around it. -/
def trim (s : String) : String :=
  String.ofList (withoutBlankEnd (s.toList.dropWhile isBlank))

@[simp] theorem toList_trimEnd (s : String) : (trimEnd s).toList = withoutBlankEnd s.toList := by
  simp [trimEnd]

@[simp] theorem toList_trim (s : String) :
    (trim s).toList = withoutBlankEnd (s.toList.dropWhile isBlank) := by
  simp [trim]

/-- Only ASCII letters have a small form here. -/
def lower (s : String) : String := s.map Char.toLower

/-- Equal up to the case of ASCII letters. -/
abbrev Caseless (s t : String) : Prop := lower s = lower t

@[simp] theorem toList_lower (s : String) : (lower s).toList = s.toList.map Char.toLower := by
  simp [lower]

theorem Caseless.length_eq {s t : String} (h : Caseless s t) : s.length = t.length := by
  simpa [lower] using congrArg String.length h

theorem caseless_iff {s t : String} :
    Caseless s t ↔ s.toList.map Char.toLower = t.toList.map Char.toLower := by
  rw [Caseless, ← String.toList_inj, toList_lower, toList_lower]

/-- The number of positions that exist; a larger numeral is no position at all. -/
def positionLimit : Nat := Nat.pow 2 64

/-- The characters after an optional plus sign. -/
def unsigned : List Char → List Char
  | '+' :: digits => digits
  | digits => digits

/-- The position that a text of decimal digits names. -/
def position? (s : String) : Option Nat :=
  let digits := unsigned s.toList
  if digits ≠ [] ∧ digits.all Char.isDigit ∧ Nat.ofDigitChars 10 digits 0 < positionLimit then
    some (Nat.ofDigitChars 10 digits 0)
  else
    none

/-- The text filled up to a width, counted in characters. A text that is wider is left as it is. -/
def padEnd (width : Nat) (s : String) : String :=
  String.ofList (s.toList.rightpad width ' ')

def padStart (width : Nat) (fill : Char) (s : String) : String :=
  String.ofList (s.toList.leftpad width fill)

/-- The greatest width that can be asked for while the program runs. -/
def widest : Nat := 65535

/-- The text filled up to a width that was computed. The program stops at a greater one than it can
be asked for, even if the text needs no filling. -/
def padEnd? (width : Nat) (s : String) : Option String :=
  if width ≤ widest then some (padEnd width s) else none

@[simp] theorem toList_padStart (width : Nat) (fill : Char) (s : String) :
    (padStart width fill s).toList = List.replicate (width - s.length) fill ++ s.toList := by
  simp [padStart, List.leftpad, String.length_toList]

theorem padEnd?_eq_some_iff {width : Nat} {s padded : String} :
    padEnd? width s = some padded ↔ width ≤ widest ∧ padEnd width s = padded := by
  unfold padEnd?
  split <;> simp [*]

end TestScript.Text
