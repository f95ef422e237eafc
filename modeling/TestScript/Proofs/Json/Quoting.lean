import Mathlib.Data.List.Basic
import TestScript.Json.Layout

namespace TestScript.Json

namespace Written

/-- What a piece adds to the part of a string that has been read. -/
def extend (read : Option Partial) : Written → Option Partial
  | .plain c => read.bind (·.char? c)
  | .short letter => read.bind fun p => (shortEscape? letter).bind p.char?
  | .code digits => read.bind (·.code? (number digits))

theorem extend_none (w : Written) : extend none w = none := by
  cases w <;> rfl

theorem foldl_extend_none (body : List Written) : body.foldl extend none = none := by
  induction body with
  | nil => rfl
  | cons w body ih => rw [List.foldl_cons, extend_none, ih]

theorem meant?_code_of_not_half {digits : List Char} (first : ¬ Partial.IsFirstHalf (number digits))
    (second : ¬ Partial.IsSecondHalf (number digits)) (body : List Written) :
    meant? (.code digits :: body) = (meant? body).map (Char.ofNat (number digits) :: ·) := by
  match body with
  | [] | .plain _ :: _ | .short _ :: _ | .code _ :: _ => simp [meant?, first, second]

theorem meant?_code_of_second {digits : List Char} (second : Partial.IsSecondHalf (number digits))
    (body : List Written) : meant? (.code digits :: body) = none := by
  have first : ¬ Partial.IsFirstHalf (number digits) := by
    unfold Partial.IsFirstHalf
    unfold Partial.IsSecondHalf at second
    omega
  match body with
  | [] | .plain _ :: _ | .short _ :: _ | .code _ :: _ => simp [meant?, first, second]

/-- The text that is read after `chars`, last one first, is what the pieces mean. A first half that
waits is still to be joined, so it counts with the pieces. -/
theorem foldl_extend_bind_text? (body : List Written) (chars : List Char) :
    (body.foldl extend (some ⟨chars, none⟩)).bind Partial.text? =
        (meant? body).map (fun cs => String.ofList (chars.reverse ++ cs)) ∧
    ∀ digits, Partial.IsFirstHalf (number digits) →
      (body.foldl extend (some ⟨chars, some (number digits)⟩)).bind Partial.text? =
        (meant? (.code digits :: body)).map fun cs => String.ofList (chars.reverse ++ cs) := by
  -- A first half at the head turns the first statement into the second one for the rest, and any
  -- piece after a half turns it back; so both go by one induction.
  induction body generalizing chars with
  | nil =>
    refine ⟨by simp [meant?, Partial.text?], ?_⟩
    intro digits first
    simp [meant?, Partial.text?, first]
  | cons w body ih =>
    constructor
    · rw [List.foldl_cons]
      cases w with
      | plain c => simp [extend, Partial.char?, meant?, ih, Function.comp_def]
      | short letter =>
        cases h : shortEscape? letter with
        | none => simp [extend, meant?, h, foldl_extend_none]
        | some d =>
          simp only [extend, h, Option.bind_some, Partial.char?, ih, meant?]
          cases meant? body <;> simp
      | code digits =>
        by_cases first : Partial.IsFirstHalf (number digits)
        · simpa [extend, Partial.code?, first] using (ih chars).2 digits first
        · by_cases second : Partial.IsSecondHalf (number digits)
          · simp [extend, Partial.code?, first, second, foldl_extend_none,
              meant?_code_of_second second]
          · simp [extend, Partial.code?, first, second, ih, Function.comp_def,
              meant?_code_of_not_half first second]
    · intro digits first
      rw [List.foldl_cons]
      cases w with
      | plain c => simp [extend, Partial.char?, meant?, first, foldl_extend_none]
      | short letter =>
        have stop : extend (some ⟨chars, some (number digits)⟩) (.short letter) = none := by
          cases h : shortEscape? letter <;> simp [extend, Partial.char?, h]
        simp [stop, meant?, first, foldl_extend_none]
      | code next =>
        by_cases second : Partial.IsSecondHalf (number next)
        · simp [extend, Partial.code?, first, second, ih, meant?, Function.comp_def]
        · simp [extend, Partial.code?, first, second, meant?, foldl_extend_none]

end Written

namespace Lexer

theorem foldlM_written {w : Written} (h : w.Valid) (done : List Token) (read : Option Partial) :
    w.chars.foldlM Lexer.step? ⟨done, .string read⟩ =
      some ⟨done, .string (Written.extend read w)⟩ := by
  cases w with
  | plain c =>
    obtain ⟨quote, slash, control⟩ := h
    have printed : ¬ c.toNat < 0x20 := by omega
    simp [Written.chars, step?, Written.extend, quote, slash, printed]
  | short letter =>
    obtain ⟨d, hd⟩ := Option.isSome_iff_exists.1 h
    have unicode : letter ≠ 'u' := by
      rintro rfl
      have none : shortEscape? 'u' = none := by decide
      simp [none] at hd
    simp [Written.chars, step?, Written.extend, unicode, hd]
  | code digits =>
    obtain ⟨four, hex⟩ := h
    obtain ⟨a, b, c, d, rfl⟩ := List.length_eq_four.1 four
    obtain ⟨w, hw⟩ := Option.isSome_iff_exists.1 (hex a (by simp))
    obtain ⟨x, hx⟩ := Option.isSome_iff_exists.1 (hex b (by simp))
    obtain ⟨y, hy⟩ := Option.isSome_iff_exists.1 (hex c (by simp))
    obtain ⟨z, hz⟩ := Option.isSome_iff_exists.1 (hex d (by simp))
    simp [Written.chars, step?, Written.extend, Written.number, hw, hx, hy, hz]

theorem foldlM_body {body : List Written} (h : ∀ w ∈ body, w.Valid) (done : List Token)
    (read : Option Partial) :
    (body.flatMap Written.chars).foldlM Lexer.step? ⟨done, .string read⟩ =
      some ⟨done, .string (body.foldl Written.extend read)⟩ := by
  induction body generalizing read with
  | nil => rfl
  | cons w body ih =>
    obtain ⟨hw, h⟩ := List.forall_mem_cons.1 h
    rw [List.flatMap_cons, List.foldlM_append, foldlM_written hw]
    exact ih h _

/-- A string with its last quote, after the first one. -/
theorem foldlM_string {body : List Written} (h : ∀ w ∈ body, w.Valid) {text : Option String}
    (meant : Written.meant? body = text.map String.toList) (done : List Token) :
    (body.flatMap Written.chars ++ ['"']).foldlM Lexer.step? ⟨done, .string (some {})⟩ =
      some ⟨.string text :: done, .between⟩ := by
  have read : (body.foldl Written.extend (some {})).bind Partial.text? = text := by
    rw [(Written.foldl_extend_bind_text? body []).1, meant]
    cases text <;> simp
  rw [List.foldlM_append, foldlM_body h]
  simp [step?, push, read]

end Lexer

theorem hexValue?_digitChar : ∀ n < 16, hexValue? (Nat.digitChar n) = some n := by decide

/-- The three ways in which a character is printed. -/
theorem escaped_cases (c : Char) :
    (∃ letter, shortEscape? letter = some c ∧ escaped c = ['\\', letter]) ∨
    (c.toNat < 0x20 ∧ escaped c =
      ['\\', 'u', '0', '0', Nat.digitChar (c.toNat / 16), Nat.digitChar (c.toNat % 16)]) ∨
    ((Written.plain c).Valid ∧ escaped c = [c]) := by
  by_cases h1 : c = '"'
  · subst h1; exact .inl ⟨'"', rfl, rfl⟩
  by_cases h2 : c = '\\'
  · subst h2; exact .inl ⟨'\\', rfl, rfl⟩
  by_cases h3 : c = '\x08'
  · subst h3; exact .inl ⟨'b', rfl, rfl⟩
  by_cases h4 : c = '\x0c'
  · subst h4; exact .inl ⟨'f', rfl, rfl⟩
  by_cases h5 : c = '\n'
  · subst h5; exact .inl ⟨'n', rfl, rfl⟩
  by_cases h6 : c = '\r'
  · subst h6; exact .inl ⟨'r', rfl, rfl⟩
  by_cases h7 : c = '\t'
  · subst h7; exact .inl ⟨'t', rfl, rfl⟩
  by_cases control : c.toNat < 0x20
  · exact .inr (.inl ⟨control, by simp [escaped, h1, h2, h3, h4, h5, h6, h7, control]⟩)
  · refine .inr (.inr ⟨⟨h1, h2, by omega⟩, ?_⟩)
    simp [escaped, h1, h2, h3, h4, h5, h6, h7, control]

theorem number_control {n : Nat} (h : n < 0x20) :
    Written.number ['0', '0', Nat.digitChar (n / 16), Nat.digitChar (n % 16)] = n := by
  have zero : hexValue? '0' = some 0 := by decide
  simp only [Written.number, List.foldl_cons, List.foldl_nil, zero, Option.getD_some,
    hexValue?_digitChar (n / 16) (by omega), hexValue?_digitChar (n % 16) (by omega)]
  omega

/-- The printed form of a character is a piece that stands for it. -/
theorem exists_written_escaped (c : Char) : ∃ w : Written, w.Valid ∧ w.chars = escaped c ∧
    ∀ body, Written.meant? (w :: body) = (Written.meant? body).map (c :: ·) := by
  rcases escaped_cases c with ⟨letter, escapes, eq⟩ | ⟨control, eq⟩ | ⟨plain, eq⟩
  · refine ⟨.short letter, by simp [Written.Valid, escapes], eq.symm, ?_⟩
    intro body
    cases h : Written.meant? body <;> simp [Written.meant?, escapes, h]
  · have number := number_control control
    refine ⟨.code ['0', '0', Nat.digitChar (c.toNat / 16), Nat.digitChar (c.toNat % 16)],
      ⟨rfl, ?_⟩, eq.symm, ?_⟩
    · have zero : (hexValue? '0').isSome := by decide
      simp [zero, hexValue?_digitChar (c.toNat / 16) (by omega),
        hexValue?_digitChar (c.toNat % 16) (by omega)]
    · intro body
      rw [Written.meant?_code_of_not_half, number, Char.ofNat_toNat] <;>
        simp only [number, Partial.IsFirstHalf, Partial.IsSecondHalf] <;> omega
  · exact ⟨.plain c, plain, eq.symm, fun body => rfl⟩

theorem exists_body_escaped (cs : List Char) : ∃ body : List Written, (∀ w ∈ body, w.Valid) ∧
    Written.meant? body = some cs ∧ body.flatMap Written.chars = cs.flatMap escaped := by
  induction cs with
  | nil => exact ⟨[], nofun, rfl, rfl⟩
  | cons c cs ih =>
    obtain ⟨body, valid, meant, chars⟩ := ih
    obtain ⟨w, hw, eq, adds⟩ := exists_written_escaped c
    exact ⟨w :: body, List.forall_mem_cons.2 ⟨hw, valid⟩, by simp [adds, meant],
      by simp [eq, chars]⟩

theorem spelled_quoted (text : Option String) : Token.Spelled (.string text) (quoted text) := by
  cases text with
  | some s =>
    obtain ⟨body, valid, meant, chars⟩ := exists_body_escaped s.toList
    exact ⟨body, valid, meant, by simp [quoted, chars]⟩
  | none => exact ⟨[.code ['d', '8', '0', '0']], by simp [Written.Valid]; decide, by decide, rfl⟩

end TestScript.Json
