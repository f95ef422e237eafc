import TestScript.Proofs.Json.Quoting

namespace TestScript.Json

/-- A character that goes on with a word. -/
def isWordChar (c : Char) : Bool := !isSpace c && (mark? c).isNone && c != '"'

theorem isWordChar_iff {c : Char} :
    isWordChar c = true ↔ isSpace c = false ∧ mark? c = none ∧ c ≠ '"' := by
  simp [isWordChar, and_assoc]

theorem isWordChar_of_isDigit {c : Char} (h : c.isDigit = true) : isWordChar c = true := by
  have ne (d : Char) (hd : d.isDigit = false) : c ≠ d := by
    rintro rfl
    simp [hd] at h
  simp [isWordChar, isSpace, mark?, ne ' ' rfl, ne '\n' rfl, ne '\t' rfl, ne '\r' rfl, ne '[' rfl,
    ne ']' rfl, ne '\x7b' rfl, ne '\x7d' rfl, ne ',' rfl, ne ':' rfl, ne '"' rfl]

theorem all_isWordChar_of_isDigits {cs : List Char} (h : isDigits cs = true) :
    cs.all isWordChar = true := by
  simp only [isDigits, Bool.and_eq_true, List.all_eq_true] at h
  exact List.all_eq_true.2 fun c hc => isWordChar_of_isDigit (h.2 c hc)

theorem all_isWordChar_takeWhile (cs : List Char) :
    (cs.takeWhile Char.isDigit).all isWordChar = true := by
  rw [List.all_eq_true]
  intro c hc
  exact isWordChar_of_isDigit (List.all_eq_true.1 List.all_takeWhile c hc)

theorem all_isWordChar_of_isExponent {cs : List Char} (h : isExponent cs = true) :
    cs.all isWordChar = true := by
  unfold isExponent at h
  split at h
  · exact Bool.and_eq_true_iff.2 ⟨rfl, all_isWordChar_of_isDigits h⟩
  · exact Bool.and_eq_true_iff.2 ⟨rfl, all_isWordChar_of_isDigits h⟩
  · exact all_isWordChar_of_isDigits h

theorem all_isWordChar_of_isScale {cs : List Char} (h : isScale cs = true) :
    cs.all isWordChar = true := by
  unfold isScale at h
  split at h
  · rfl
  · next letter exponent =>
    obtain ⟨hl, he⟩ := Bool.and_eq_true_iff.1 h
    have word : isWordChar letter = true := by
      simp only [isExponentLetter, Bool.or_eq_true, beq_iff_eq] at hl
      rcases hl with rfl | rfl <;> rfl
    simp [word, all_isWordChar_of_isExponent he]

theorem all_isWordChar_of_isMagnitude {cs : List Char} (h : isMagnitude cs = true) :
    cs.all isWordChar = true := by
  simp only [isMagnitude, Bool.and_eq_true] at h
  rw [← List.takeWhile_append_dropWhile (p := Char.isDigit) (l := cs), List.all_append,
    all_isWordChar_takeWhile, Bool.true_and]
  have rest := h.2
  split at rest
  · next fraction eq =>
    rw [eq, ← List.takeWhile_append_dropWhile (p := Char.isDigit) (l := fraction)]
    obtain ⟨_, scale⟩ := Bool.and_eq_true_iff.1 rest
    simp only [List.all_cons, List.all_append, all_isWordChar_takeWhile,
      all_isWordChar_of_isScale scale]
    rfl
  · exact all_isWordChar_of_isScale rest

theorem all_isWordChar_of_isNumeral {cs : List Char} (h : isNumeral cs = true) :
    cs.all isWordChar = true := by
  unfold isNumeral at h
  split at h
  · exact Bool.and_eq_true_iff.2 ⟨rfl, all_isWordChar_of_isMagnitude h⟩
  · exact all_isWordChar_of_isMagnitude h

theorem wordToken?_of_isNumeral {cs : List Char} (h : isNumeral cs = true) :
    wordToken? cs = some (.number (String.ofList cs)) := by
  have ne (word : List Char) (hw : isNumeral word = false) : cs ≠ word := by
    rintro rfl
    simp [hw] at h
  simp only [wordToken?, ne "null".toList (by decide), ne "true".toList (by decide),
    ne "false".toList (by decide), h, ↓reduceIte]

/-- Tokens that are written as words. -/
def Token.IsWord : Token → Prop
  | .null | .bool _ | .number _ => True
  | _ => False

theorem Token.Spelled.wordToken? {token : Token} {word : List Char} (h : token.Spelled word)
    (isWord : token.IsWord) :
    Json.wordToken? word = some token ∧ word.all isWordChar = true ∧ word ≠ [] := by
  cases token with
  | null =>
    subst h
    exact ⟨rfl, by decide, by decide⟩
  | bool value =>
    subst h
    cases value <;> exact ⟨by decide, by decide, by decide⟩
  | number numeral =>
    obtain ⟨hn, rfl⟩ := h
    refine ⟨by rw [wordToken?_of_isNumeral hn, String.ofList_toList],
      all_isWordChar_of_isNumeral hn, ?_⟩
    intro empty
    rw [empty] at hn
    exact absurd hn (by decide)
  | openArray | closeArray | openObject | closeObject | comma | colon | string _ =>
    exact isWord.elim

namespace Lexer

/-- The lexer is not inside a string, and has read these tokens, last one first. -/
structure Stands (l : Lexer) (done : List Token) : Prop where
  outside : l.mode = .between ∨ ∃ cs, l.mode = .word cs
  ended : l.endWord? = some { tokens := done }

theorem stands_between (done : List Token) : Stands { tokens := done } done :=
  ⟨.inl rfl, rfl⟩

theorem Stands.eq_of_between {l : Lexer} {done : List Token} (h : l.Stands done)
    (between : l.mode = .between) : l = { tokens := done } := by
  have ended := h.ended
  simpa [endWord?, between] using ended

theorem Stands.step? {l : Lexer} {done : List Token} (h : l.Stands done) (c : Char) :
    l.step? c = l.outside? c := by
  rcases h.outside with hm | ⟨cs, hm⟩ <;> simp [Lexer.step?, hm]

theorem Stands.finish? {l : Lexer} {done : List Token} (h : l.Stands done) :
    l.finish? = some done.reverse := by
  rcases h.outside with hm | ⟨cs, hm⟩
  · rw [h.eq_of_between hm]
    rfl
  · simp [Lexer.finish?, hm, h.ended]

theorem Stands.gap {l : Lexer} {done : List Token} (h : l.Stands done) {gap : List Char}
    (hg : IsGap gap) : ∃ next, gap.foldlM Lexer.step? l = some next ∧ next.Stands done ∧
      (l.mode = .between → next.mode = .between) := by
  induction gap generalizing l with
  | nil => exact ⟨l, rfl, h, id⟩
  | cons c gap ih =>
    obtain ⟨next, read, stands, between⟩ :=
      ih (stands_between done) fun d hd => hg d (List.mem_cons_of_mem _ hd)
    have space : isSpace c = true := hg c (by simp)
    refine ⟨next, ?_, stands, fun _ => between rfl⟩
    simp [h.step?, outside?, space, h.ended, read]

theorem Stands.mark {l : Lexer} {done : List Token} (h : l.Stands done) {c : Char} {token : Token}
    (space : isSpace c = false) (mark : mark? c = some token) :
    [c].foldlM Lexer.step? l = some { tokens := token :: done } := by
  simp [h.step?, outside?, space, mark, h.ended, push]

theorem Stands.string {l : Lexer} {done : List Token} (h : l.Stands done) {text : Option String}
    {word : List Char} (hw : Token.Spelled (.string text) word) :
    word.foldlM Lexer.step? l = some { tokens := .string text :: done } := by
  obtain ⟨body, valid, meant, rfl⟩ := hw
  have quote : l.step? '"' = some ⟨done, .string (some {})⟩ := by
    have space : isSpace '"' = false := rfl
    have mark : mark? '"' = none := rfl
    simp [h.step?, outside?, space, mark, h.ended]
  rw [List.foldlM_cons, quote]
  exact foldlM_string valid meant done

theorem foldlM_wordChars {cs : List Char} (h : cs.all isWordChar = true) (done : List Token)
    (read : List Char) :
    cs.foldlM Lexer.step? ⟨done, .word read⟩ = some ⟨done, .word (cs.reverse ++ read)⟩ := by
  induction cs generalizing read with
  | nil => rfl
  | cons c cs ih =>
    obtain ⟨hc, hcs⟩ := Bool.and_eq_true_iff.1 h
    obtain ⟨space, mark, quote⟩ := isWordChar_iff.1 hc
    simp [Lexer.step?, outside?, space, mark, quote, ih hcs]

theorem foldlM_word {word : List Char} {token : Token} (hw : Json.wordToken? word = some token)
    (chars : word.all isWordChar = true) (ne : word ≠ []) (done : List Token) :
    ∃ next, word.foldlM Lexer.step? { tokens := done } = some next ∧ next.Stands (token :: done) := by
  obtain ⟨c, cs, rfl⟩ := List.exists_cons_of_ne_nil ne
  obtain ⟨hc, hcs⟩ := Bool.and_eq_true_iff.1 chars
  obtain ⟨space, mark, quote⟩ := isWordChar_iff.1 hc
  refine ⟨⟨done, .word (cs.reverse ++ [c])⟩, ?_, .inr ⟨_, rfl⟩, ?_⟩
  · simp [Lexer.step?, outside?, space, mark, quote, foldlM_wordChars hcs]
  · simp [endWord?, hw, push]

/-- A word is read only where no other word is waiting, and only a word is left waiting. -/
theorem Stands.token {l : Lexer} {done : List Token} (h : l.Stands done) {token : Token}
    {word : List Char} (spelled : token.Spelled word) (alone : token.IsWord → l.mode = .between) :
    ∃ next, word.foldlM Lexer.step? l = some next ∧ next.Stands (token :: done) ∧
      (¬ token.IsWord → next.mode = .between) := by
  cases token with
  | openArray | closeArray | openObject | closeObject | comma | colon =>
    subst spelled
    exact ⟨_, h.mark rfl rfl, stands_between _, fun _ => rfl⟩
  | string text => exact ⟨_, h.string spelled, stands_between _, fun _ => rfl⟩
  | null | bool _ | number _ =>
    obtain ⟨hw, chars, ne⟩ := spelled.wordToken? trivial
    obtain ⟨next, read, stands⟩ := foldlM_word hw chars ne done
    rw [h.eq_of_between (alone trivial)]
    exact ⟨next, read, stands, fun no => absurd trivial no⟩

end Lexer

/-- No two words in a row. -/
def Parted : List Token → Prop
  | first :: second :: rest =>
    (first.IsWord → ¬ second.IsWord) ∧ Parted (second :: rest)
  | _ => True

theorem Parted.tail {token : Token} {tokens : List Token} (h : Parted (token :: tokens)) :
    Parted tokens := by
  cases tokens with
  | nil => trivial
  | cons _ _ => exact h.2

theorem Lexer.foldlM_layout {tokens : List Token} {cs : List Char} (layout : Layout tokens cs)
    (parted : Parted tokens) {l : Lexer} {done : List Token} (h : l.Stands done)
    (alone : ∀ token ∈ tokens.head?, token.IsWord → l.mode = .between) :
    ∃ next, cs.foldlM Lexer.step? l = some next ∧ next.Stands (tokens.reverse ++ done) := by
  induction layout generalizing l done with
  | nil gap =>
    obtain ⟨next, read, stands, _⟩ := h.gap gap
    exact ⟨next, read, stands⟩
  | @cons gap token word tokens cs hg spelled _ ih =>
    obtain ⟨before, readGap, stands, between⟩ := h.gap hg
    obtain ⟨after, readWord, stands, ended⟩ :=
      stands.token spelled fun isWord => between (alone token rfl isWord)
    -- where the next token is a word this one is none, and so it has ended
    have next_alone : ∀ next ∈ tokens.head?, next.IsWord → after.mode = .between := by
      intro next hn isWord
      obtain ⟨rest, rfl⟩ := List.head?_eq_some_iff.1 hn
      exact ended fun both => parted.1 both isWord
    obtain ⟨last, read, stands⟩ := ih parted.tail stands next_alone
    refine ⟨last, ?_, by simpa using stands⟩
    simp [List.foldlM_append, readGap, readWord, read]

theorem lex?_of_layout {tokens : List Token} {cs : List Char} (layout : Layout tokens cs)
    (parted : Parted tokens) : lex? cs = some tokens := by
  obtain ⟨last, read, stands⟩ :=
    Lexer.foldlM_layout layout parted (Lexer.stands_between []) fun _ _ _ => rfl
  simp [lex?, read, stands.finish?]

end TestScript.Json
