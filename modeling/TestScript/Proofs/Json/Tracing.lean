import TestScript.Proofs.Json.Printing

namespace TestScript.Json

theorem Layout.concat {tokens : List Token} {cs : List Char} (h : Layout tokens cs) {token : Token}
    {word : List Char} (spelled : token.Spelled word) :
    Layout (tokens ++ [token]) (cs ++ word) := by
  induction h with
  | nil gap => simpa using Layout.cons gap spelled (.nil isGap_nil)
  | cons gap first _ ih => simpa using Layout.cons gap first ih

theorem Layout.concat_space {tokens : List Token} {cs : List Char} (h : Layout tokens cs) {c : Char}
    (space : isSpace c = true) : Layout tokens (cs ++ [c]) := by
  induction h with
  | nil gap => exact .nil (List.forall_mem_append.2 ⟨gap, List.forall_mem_singleton.2 space⟩)
  | cons gap first _ ih => simpa using Layout.cons gap first ih

theorem Token.spelled_of_mark? {c : Char} {token : Token} (h : mark? c = some token) :
    token.Spelled [c] := by
  unfold mark? at h
  split_ifs at h with h1 h2 h3 h4 h5 h6 <;> cases h <;> subst c <;> rfl

theorem Token.spelled_of_wordToken? {word : List Char} {token : Token}
    (h : wordToken? word = some token) : token.Spelled word := by
  unfold wordToken? at h
  split_ifs at h with null yes no numeral <;> cases h
  · exact null
  · exact yes
  · exact no
  · exact ⟨numeral, by rw [String.toList_ofList]⟩

/-- The characters of a token that is not at its end yet. -/
inductive Mode.Holds : Mode → List Char → Prop where
  | between : Holds .between []
  | word (chars : List Char) : Holds (.word chars) chars.reverse
  | string {body : List Written} : (∀ w ∈ body, w.Valid) →
      Holds (.string (body.foldl Written.extend (some {}))) ('"' :: body.flatMap Written.chars)
  | escape {body : List Written} : (∀ w ∈ body, w.Valid) →
      Holds (.escape (body.foldl Written.extend (some {})))
        ('"' :: (body.flatMap Written.chars ++ ['\\']))
  | hex {body : List Written} {digits : List Char} {digitsLeft : Nat} : (∀ w ∈ body, w.Valid) →
      (∀ c ∈ digits, (hexValue? c).isSome) → digits.length + digitsLeft = 3 →
      Holds (.hex (body.foldl Written.extend (some {})) digitsLeft (Written.number digits))
        ('"' :: (body.flatMap Written.chars ++ '\\' :: 'u' :: digits))

/-- The last quote makes a token of whatever has been written. -/
theorem spelled_string {body : List Written} (valid : ∀ w ∈ body, w.Valid) :
    Token.Spelled (.string ((body.foldl Written.extend (some {})).bind Partial.text?))
      ('"' :: (body.flatMap Written.chars ++ ['"'])) := by
  refine ⟨body, valid, ?_, rfl⟩
  rw [(Written.foldl_extend_bind_text? body []).1, Option.map_map]
  cases Written.meant? body <;> simp

theorem Written.number_concat (digits : List Char) {c : Char} {digit : Nat}
    (h : hexValue? c = some digit) : number (digits ++ [c]) = 16 * number digits + digit := by
  simp [number, h]

namespace Lexer

/-- What a lexer has read: its tokens in some layout, and the part of one more. -/
def HasRead (l : Lexer) (cs : List Char) : Prop :=
  ∃ done part, cs = done ++ part ∧ Layout l.tokens.reverse done ∧ l.mode.Holds part

/-- No token has begun, or a word has. -/
def Outside (l : Lexer) : Prop := l.mode = .between ∨ ∃ chars, l.mode = .word chars

/-- Everything that a character outside of strings can do. -/
theorem outside?_cases {l next : Lexer} {c : Char} (taken : l.outside? c = some next) :
    (isSpace c = true ∧ l.endWord? = some next) ∨
    (∃ token ended, mark? c = some token ∧ l.endWord? = some ended ∧ next = ended.push token) ∨
    (∃ ended, c = '"' ∧ l.endWord? = some ended ∧ next = { ended with mode := .string (some {}) }) ∨
    (∃ chars, l.mode = .word chars ∧ next = { l with mode := .word (c :: chars) }) ∨
    ((∀ chars, l.mode ≠ .word chars) ∧ next = { l with mode := .word [c] }) := by
  unfold outside? at taken
  split at taken
  · next space => exact .inl ⟨space, taken⟩
  · split at taken
    · next token mark =>
      obtain ⟨ended, he, rfl⟩ := Option.map_eq_some_iff.1 taken
      exact .inr (.inl ⟨token, ended, mark, he, rfl⟩)
    · split at taken
      · next quote =>
        obtain ⟨ended, he, rfl⟩ := Option.map_eq_some_iff.1 taken
        exact .inr (.inr (.inl ⟨ended, quote, he, rfl⟩))
      · split at taken
        · next chars word =>
          exact .inr (.inr (.inr (.inl ⟨chars, word, (Option.some.inj taken).symm⟩)))
        · next none => exact .inr (.inr (.inr (.inr ⟨none, (Option.some.inj taken).symm⟩)))

/-- A lexer that has ended its word has read nothing but its tokens. -/
theorem HasRead.endWord? {l next : Lexer} {cs : List Char} (h : l.HasRead cs) (outside : l.Outside)
    (ended : l.endWord? = some next) :
    Layout next.tokens.reverse cs ∧ next.mode = .between := by
  obtain ⟨done, part, rfl, layout, holds⟩ := h
  rcases outside with between | ⟨chars, word⟩
  · rw [between] at holds
    cases holds
    simp only [Lexer.endWord?, between, Option.some.injEq] at ended
    subst ended
    exact ⟨by simpa using layout, between⟩
  · rw [word] at holds
    cases holds
    simp only [Lexer.endWord?, word, Option.map_eq_some_iff] at ended
    obtain ⟨token, ht, rfl⟩ := ended
    refine ⟨?_, rfl⟩
    rw [push, List.reverse_cons]
    exact layout.concat (Token.spelled_of_wordToken? ht)

theorem hasRead_between {done : List Token} {cs : List Char} (h : Layout done.reverse cs) :
    HasRead { tokens := done } cs :=
  ⟨cs, [], by simp, h, .between⟩

theorem hasRead_push {l : Lexer} {done word : List Char} {token : Token}
    (layout : Layout l.tokens.reverse done) (spelled : token.Spelled word) :
    (l.push token).HasRead (done ++ word) := by
  apply hasRead_between
  rw [List.reverse_cons]
  exact layout.concat spelled

theorem HasRead.outside? {l next : Lexer} {cs : List Char} {c : Char} (h : l.HasRead cs)
    (outside : l.Outside) (taken : l.outside? c = some next) : next.HasRead (cs ++ [c]) := by
  rcases outside?_cases taken with ⟨space, ended⟩ | ⟨token, before, mark, ended, rfl⟩ |
    ⟨before, rfl, ended, rfl⟩ | ⟨chars, word, rfl⟩ | ⟨no_word, rfl⟩
  · obtain ⟨layout, between⟩ := h.endWord? outside ended
    exact ⟨cs ++ [c], [], by simp, layout.concat_space space, between ▸ .between⟩
  · exact hasRead_push (h.endWord? outside ended).1 (Token.spelled_of_mark? mark)
  · have empty : ∀ w ∈ ([] : List Written), w.Valid := List.forall_mem_nil _
    exact ⟨cs, ['"'], rfl, (h.endWord? outside ended).1, .string empty⟩
  · obtain ⟨done, part, rfl, layout, holds⟩ := h
    rw [word] at holds
    cases holds
    have longer := Mode.Holds.word (c :: chars)
    exact ⟨done, chars.reverse ++ [c], by simp, layout, by simpa using longer⟩
  · obtain ⟨done, part, rfl, layout, holds⟩ := h
    have between : l.mode = .between :=
      outside.resolve_right fun ⟨chars, word⟩ => no_word chars word
    rw [between] at holds
    cases holds
    exact ⟨done, [c], by simp, layout, .word [c]⟩

section String

variable {tokens : List Token} {done : List Char} {body : List Written} {c : Char} {next : Lexer}
  (layout : Layout tokens.reverse done) (valid : ∀ w ∈ body, w.Valid)
include layout valid

/-- One more piece stands in the string. -/
theorem hasRead_piece {w : Written} (hw : w.Valid) :
    HasRead ⟨tokens, .string (Written.extend (body.foldl Written.extend (some {})) w)⟩
      (done ++ '"' :: (body.flatMap Written.chars ++ w.chars)) := by
  have all := List.forall_mem_append.2 ⟨valid, List.forall_mem_singleton.2 hw⟩
  exact ⟨done, _, rfl, layout, by simpa using Mode.Holds.string all⟩

theorem hasRead_string
    (taken : step? ⟨tokens, .string (body.foldl Written.extend (some {}))⟩ c = some next) :
    next.HasRead (done ++ '"' :: (body.flatMap Written.chars ++ [c])) := by
  simp only [Lexer.step?] at taken
  split_ifs at taken with quote slash control <;> cases taken
  · subst quote
    exact hasRead_push layout (spelled_string valid)
  · subst slash
    exact ⟨done, _, rfl, layout, .escape valid⟩
  · exact hasRead_piece layout valid (w := .plain c) ⟨quote, slash, by omega⟩

theorem hasRead_escape
    (taken : step? ⟨tokens, .escape (body.foldl Written.extend (some {}))⟩ c = some next) :
    next.HasRead (done ++ '"' :: (body.flatMap Written.chars ++ ['\\', c])) := by
  simp only [Lexer.step?] at taken
  split_ifs at taken with unicode
  · cases taken
    subst unicode
    have empty : ∀ d ∈ ([] : List Char), (hexValue? d).isSome := List.forall_mem_nil _
    exact ⟨done, _, rfl, layout, .hex valid empty rfl⟩
  · obtain ⟨d, hd, rfl⟩ := Option.map_eq_some_iff.1 taken
    have short : (Written.short c).Valid := by simp [Written.Valid, hd]
    simpa [Written.extend, Written.chars, hd] using hasRead_piece layout valid short

theorem hasRead_hex {digits : List Char} {digitsLeft : Nat}
    (hex : ∀ d ∈ digits, (hexValue? d).isSome) (count : digits.length + digitsLeft = 3)
    (taken : step? ⟨tokens, .hex (body.foldl Written.extend (some {})) digitsLeft
      (Written.number digits)⟩ c = some next) :
    next.HasRead
      (done ++ '"' :: (body.flatMap Written.chars ++ '\\' :: 'u' :: (digits ++ [c]))) := by
  obtain ⟨digit, hd, rfl⟩ := Option.map_eq_some_iff.1 taken
  have more : ∀ d ∈ digits ++ [c], (hexValue? d).isSome :=
    List.forall_mem_append.2 ⟨hex, List.forall_mem_singleton.2 (by simp [hd])⟩
  have number := Written.number_concat digits hd
  cases digitsLeft with
  | zero =>
    have code : (Written.code (digits ++ [c])).Valid := ⟨by simpa using count, more⟩
    have piece := hasRead_piece layout valid code
    rw [Written.extend, number] at piece
    exact piece
  | succ left =>
    have fewer : (digits ++ [c]).length + left = 3 := by
      simp only [List.length_append, List.length_singleton]
      omega
    have part := Mode.Holds.hex valid more fewer
    rw [number] at part
    exact ⟨done, _, rfl, layout, part⟩

end String

theorem HasRead.step? {l next : Lexer} {cs : List Char} {c : Char} (h : l.HasRead cs)
    (taken : l.step? c = some next) : next.HasRead (cs ++ [c]) := by
  obtain ⟨tokens, mode⟩ := l
  have ⟨done, part, eq, layout, holds⟩ := h
  cases holds with
  | between => exact h.outside? (.inl rfl) taken
  | word chars => exact h.outside? (.inr ⟨chars, rfl⟩) taken
  | string valid => simpa [eq] using hasRead_string layout valid taken
  | escape valid => simpa [eq] using hasRead_escape layout valid taken
  | hex valid hex count => simpa [eq] using hasRead_hex layout valid hex count taken

theorem HasRead.foldlM {l next : Lexer} {before cs : List Char} (h : l.HasRead before)
    (run : cs.foldlM Lexer.step? l = some next) : next.HasRead (before ++ cs) := by
  induction cs generalizing l before with
  | nil =>
    cases run
    simpa using h
  | cons c cs ih =>
    obtain ⟨mid, taken, rest⟩ := Option.bind_eq_some_iff.1 run
    simpa using ih (h.step? taken) rest

end Lexer

theorem layout_of_lex? {cs : List Char} {tokens : List Token} (h : lex? cs = some tokens) :
    Layout tokens cs := by
  obtain ⟨last, run, finished⟩ := Option.bind_eq_some_iff.1 h
  have start : Lexer.HasRead {} [] := Lexer.hasRead_between (.nil isGap_nil)
  have read : last.HasRead cs := start.foldlM run
  have outside : last.Outside := by
    unfold Lexer.finish? at finished
    split at finished
    · next between => exact .inl between
    · next chars word => exact .inr ⟨chars, word⟩
    · cases finished
  have ended : last.endWord?.map (·.tokens.reverse) = some tokens := by
    rcases outside with between | ⟨chars, word⟩
    · simpa [Lexer.finish?, Lexer.endWord?, between] using finished
    · simpa [Lexer.finish?, word] using finished
  obtain ⟨next, he, rfl⟩ := Option.map_eq_some_iff.1 ended
  exact (read.endWord? outside he).1

end TestScript.Json
