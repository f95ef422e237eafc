import TestScript.Json.ReadBack
import TestScript.Proofs.Json.Lexing

namespace TestScript.Json

/-- A number in a token is written as one. -/
def Token.Printable : Token → Prop
  | .number numeral => isNumeral numeral.toList
  | _ => True

theorem Token.Printable.spelled {token : Token} (h : token.Printable) :
    token.Spelled token.spelling := by
  cases token with
  | number numeral => exact ⟨h, rfl⟩
  | string text => exact spelled_quoted text
  | openArray | closeArray | openObject | closeObject | comma | colon | null | bool _ => rfl

section Items

variable {items : List Json} (h : ∀ v ∈ items, ∀ token ∈ v.tokens, token.Printable)
include h

theorem printable_itemTokens : ∀ token ∈ itemTokens items, token.Printable := by
  induction items with
  | nil => nofun
  | cons v items ih =>
    obtain ⟨first, h⟩ := List.forall_mem_cons.1 h
    have later := List.forall_mem_append.2 ⟨first, ih h⟩
    exact List.forall_mem_cons.2 ⟨trivial, later⟩

theorem printable_array : ∀ token ∈ (array items).tokens, token.Printable := by
  cases items with
  | nil => simp [tokens, Token.Printable]
  | cons v items =>
    obtain ⟨first, h⟩ := List.forall_mem_cons.1 h
    have inner := List.forall_mem_append.2 ⟨first, printable_itemTokens h⟩
    have close : ∀ token ∈ [Token.closeArray], token.Printable := List.forall_mem_singleton.2 trivial
    exact List.forall_mem_cons.2 ⟨trivial, List.forall_mem_append.2 ⟨inner, close⟩⟩

end Items

theorem isGap_nil : IsGap [] := nofun

theorem isGap_lineStart (depth : Nat) : IsGap (lineStart depth) := by
  intro c hc
  rcases List.mem_cons.1 hc with rfl | hc
  · rfl
  · rw [(List.mem_replicate.1 hc).2]
    rfl

theorem Layout.gap {tokens : List Token} {cs : List Char} (h : Layout tokens cs) {gap : List Char}
    (hg : IsGap gap) : Layout tokens (gap ++ cs) := by
  have joined {other : List Char} (ho : IsGap other) : IsGap (gap ++ other) := by
    intro c hc
    rcases List.mem_append.1 hc with hc | hc
    · exact hg c hc
    · exact ho c hc
  cases h with
  | nil ho => exact .nil (joined ho)
  | cons ho spelled rest => simpa using Layout.cons (joined ho) spelled rest

theorem Layout.token {token : Token} {tokens : List Token} {cs gap : List Char}
    (h : token.Printable) (hg : IsGap gap) (rest : Layout tokens cs) :
    Layout (token :: tokens) (token.spelling ++ (gap ++ cs)) := by
  simpa using Layout.cons isGap_nil h.spelled (rest.gap hg)

theorem layout_compact {tokens : List Token} (h : ∀ token ∈ tokens, token.Printable) :
    Layout tokens (tokens.flatMap Token.spelling) := by
  induction tokens with
  | nil => exact .nil isGap_nil
  | cons token tokens ih =>
    obtain ⟨first, h⟩ := List.forall_mem_cons.1 h
    exact Layout.token first isGap_nil (ih h)

theorem layout_wide {tokens : List Token} (h : ∀ token ∈ tokens, token.Printable) (depth : Nat) :
    Layout tokens (wide depth tokens) := by
  fun_induction wide depth tokens with
  | case1 depth => exact .nil isGap_nil
  | case2 depth rest ih | case3 depth rest ih =>
    -- an empty array or object, the only two tokens that are printed at once
    obtain ⟨first, h⟩ := List.forall_mem_cons.1 h
    obtain ⟨last, h⟩ := List.forall_mem_cons.1 h
    exact .token first isGap_nil (.token last isGap_nil (ih h))
  | case4 depth rest _ ih | case5 depth rest _ ih | case8 depth rest ih =>
    obtain ⟨first, h⟩ := List.forall_mem_cons.1 h
    exact .token first (isGap_lineStart _) (ih h)
  | case6 depth rest ih | case7 depth rest ih =>
    -- the line is broken before a closing mark, not after it
    obtain ⟨first, h⟩ := List.forall_mem_cons.1 h
    exact (Layout.token first isGap_nil (ih h)).gap (isGap_lineStart _)
  | case9 depth rest ih =>
    obtain ⟨first, h⟩ := List.forall_mem_cons.1 h
    have space : IsGap [' '] := by simp [IsGap, isSpace]
    exact .token first space (ih h)
  | case10 depth token rest _ _ _ _ _ _ _ _ ih =>
    obtain ⟨first, h⟩ := List.forall_mem_cons.1 h
    exact .token first isGap_nil (ih h)

/-- No word comes first. -/
def Starts (tokens : List Token) : Prop := ∀ token ∈ tokens.head?, ¬ token.IsWord

theorem starts_mark {token : Token} (mark : ¬ token.IsWord) (tokens : List Token) :
    Starts (token :: tokens) := by
  intro first hf
  rw [← Option.some.inj hf]
  exact mark

theorem Parted.cons {token : Token} {tokens : List Token} (h : Parted tokens)
    (alone : token.IsWord → Starts tokens) : Parted (token :: tokens) := by
  cases tokens with
  | nil => trivial
  | cons next rest => exact ⟨fun isWord => alone isWord next rfl, h⟩

theorem Parted.mark {token : Token} {tokens : List Token} (mark : ¬ token.IsWord)
    (h : Parted tokens) : Parted (token :: tokens) :=
  h.cons fun isWord => absurd isWord mark

-- What stands between two values, or after one, is no word; so the rest that a value is put before
-- must not start with one.
mutual

theorem parted_tokens (v : Json) {rest : List Token} (h : Parted rest) (starts : Starts rest) :
    Parted (v.tokens ++ rest) := by
  match v with
  | .null | .bool _ | .number _ | .string _ => exact h.cons fun _ => starts
  | .array [] => exact .mark id (.mark id h)
  | .array (v :: items) =>
    have close : Parted (.closeArray :: rest) := .mark id h
    obtain ⟨hi, si⟩ := parted_itemTokens items close (starts_mark id rest)
    have value : Parted (.openArray :: (v.tokens ++ _)) := .mark id (parted_tokens v hi si)
    simpa [tokens] using value
  | .object [] => exact .mark id (.mark id h)
  | .object ((key, v) :: members) =>
    have close : Parted (.closeObject :: rest) := .mark id h
    obtain ⟨hm, sm⟩ := parted_memberTokens members close (starts_mark id rest)
    have value : Parted (.openObject :: .string key :: .colon :: (v.tokens ++ _)) :=
      .mark id (.mark id (.mark id (parted_tokens v hm sm)))
    simpa [tokens] using value

theorem parted_itemTokens (items : List Json) {rest : List Token} (h : Parted rest)
    (starts : Starts rest) :
    Parted (itemTokens items ++ rest) ∧ Starts (itemTokens items ++ rest) := by
  match items with
  | [] => exact ⟨h, starts⟩
  | v :: items =>
    obtain ⟨hi, si⟩ := parted_itemTokens items h starts
    have value : Parted (.comma :: (v.tokens ++ _)) := .mark id (parted_tokens v hi si)
    exact ⟨by simpa [itemTokens] using value, starts_mark id _⟩

theorem parted_memberTokens (members : List (Option String × Json)) {rest : List Token}
    (h : Parted rest) (starts : Starts rest) :
    Parted (memberTokens members ++ rest) ∧ Starts (memberTokens members ++ rest) := by
  match members with
  | [] => exact ⟨h, starts⟩
  | (key, v) :: members =>
    obtain ⟨hm, sm⟩ := parted_memberTokens members h starts
    have value : Parted (.comma :: .string key :: .colon :: (v.tokens ++ _)) :=
      .mark id (.mark id (.mark id (parted_tokens v hm sm)))
    exact ⟨by simpa [memberTokens] using value, starts_mark id _⟩

end

/-- Reading does not depend on the layout, nor on the spelling of the strings. -/
theorem parse?_of_isTextOf {text : String} {v : Json} (h : IsTextOf text v) :
    parse? text = some v := by
  have parted : Parted (v.tokens ++ []) := parted_tokens v trivial nofun
  rw [List.append_nil] at parted
  simp [parse?, lex?_of_layout h parted, ofTokens?_tokens]

theorem isTextOf_compactText {v : Json} (h : ∀ token ∈ v.tokens, token.Printable) :
    IsTextOf v.compactText v := by
  simpa [IsTextOf, compactText] using layout_compact h

theorem isTextOf_wideText {v : Json} (h : ∀ token ∈ v.tokens, token.Printable) :
    IsTextOf v.wideText v := by
  simpa [IsTextOf, wideText] using layout_wide h 0

theorem eq_of_wideText_eq {v w : Json} (hv : ∀ token ∈ v.tokens, token.Printable)
    (hw : ∀ token ∈ w.tokens, token.Printable) (same : v.wideText = w.wideText) : v = w := by
  have read := parse?_of_isTextOf (isTextOf_wideText hv)
  rw [same, parse?_of_isTextOf (isTextOf_wideText hw)] at read
  exact (Option.some.inj read).symm

end TestScript.Json
