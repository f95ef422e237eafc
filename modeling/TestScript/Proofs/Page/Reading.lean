import TestScript.Page.Markup
import TestScript.Proofs.Page.Escaping

namespace TestScript.Html

/-- A name that a tag or an attribute can have. -/
def isName (s : String) : Bool := s.toList ≠ [] && s.toList.all Markup.isNameChar

/-- The attribute as it stands in a tag. -/
def escapeAttribute (a : Attribute) : Attribute := { a with value := escapeValue a.value }

theorem isName_iff {s : String} :
    isName s = true ↔ s.toList ≠ [] ∧ ∀ c ∈ s.toList, Markup.isNameChar c = true := by
  simp [isName]

namespace Piece

def isNamed : Piece → Bool
  | .opening tag attributes => isName tag && attributes.all (isName ·.name)
  | .closing tag => isName tag
  | .text _ => true

/-- The markup with a piece before it. -/
def before : Piece → Markup → Markup
  | .opening tag attributes, m => m.afterTag (.opening tag (attributes.map escapeAttribute))
  | .closing tag, m => m.afterTag (.closing tag)
  | .text content, m => m.afterText (escapeText content)

end Piece

namespace Markup

theorem isNameChar_ne {c d : Char} (h : isNameChar c = true) (hd : isNameChar d = false) :
    c ≠ d := by
  rintro rfl
  simp [hd] at h

/-- Characters that a place takes one by one are taken all at once. -/
theorem readFrom?_taken {P : Char → Prop} {place : List Char → Place}
    (takes : ∀ read c rest, P c →
      readFrom? (place read) (c :: rest) = readFrom? (place (read ++ [c])) rest)
    {cs : List Char} (h : ∀ c ∈ cs, P c) (read rest : List Char) :
    readFrom? (place read) (cs ++ rest) = readFrom? (place (read ++ cs)) rest := by
  induction cs generalizing read with
  | nil => simp
  | cons c cs ih =>
    obtain ⟨hc, hcs⟩ := List.forall_mem_cons.1 h
    rw [List.cons_append, takes read c _ hc, ih hcs, List.append_assoc, List.singleton_append]

attribute [local simp] readFrom?

theorem readFrom?_text {cs : List Char} (h : '<' ∉ cs) (rest : List Char) :
    readFrom? .text (cs ++ rest) = (readFrom? .text rest).map (·.afterText (String.ofList cs)) := by
  induction cs with
  | nil => simp
  | cons c cs ih =>
    have hc : c ≠ '<' := fun same => h (same ▸ List.mem_cons_self)
    have hcs : '<' ∉ cs := fun later => h (List.mem_cons_of_mem c later)
    simp [hc, ih hcs, Function.comp_def]

theorem readFrom?_start {tag : String} (h : isName tag = true) (rest : List Char) :
    readFrom? .start (tag.toList ++ rest) = readFrom? (.opening tag.toList) rest := by
  obtain ⟨ne, word⟩ := isName_iff.1 h
  obtain ⟨c, cs, eq⟩ := List.exists_cons_of_ne_nil ne
  rw [eq] at word ⊢
  obtain ⟨hc, hcs⟩ := List.forall_mem_cons.1 word
  have first : readFrom? .start (c :: (cs ++ rest)) = readFrom? (.opening [c]) (cs ++ rest) := by
    simp [hc, isNameChar_ne hc (d := '/') rfl]
  rw [List.cons_append, first, readFrom?_taken _ hcs]
  · rfl
  · intro read c rest hc
    simp [hc, isNameChar_ne hc (d := '>') rfl, isNameChar_ne hc (d := ' ') rfl]

/-- After its name a tag goes on as it does after an attribute. -/
theorem readFrom?_opening {cs : List Char} (h : cs.head? = some '>' ∨ cs.head? = some ' ')
    (tag : String) : readFrom? (.opening tag.toList) cs = readFrom? (.inside tag []) cs := by
  rcases h with h | h
  all_goals
    obtain ⟨rest, rfl⟩ := List.head?_eq_some_iff.1 h
    simp

theorem readFrom?_closing {tag : String} (h : isName tag = true) (rest : List Char) :
    readFrom? .text ((Piece.closing tag).write.toList ++ rest) =
      (readFrom? .text rest).map (·.afterTag (.closing tag)) := by
  have taken : readFrom? (.closing []) (tag.toList ++ '>' :: rest) =
      readFrom? (.closing tag.toList) ('>' :: rest) := by
    rw [readFrom?_taken _ (isName_iff.1 h).2, List.nil_append]
    intro read c rest hc
    simp [hc, isNameChar_ne hc (d := '>') rfl]
  simp [Piece.write, taken]

theorem readFrom?_key {key : String} (h : isName key = true) (tag : String)
    (attributes : List Attribute) (rest : List Char) :
    readFrom? (.inside tag attributes) (key.toList ++ '=' :: rest) =
      readFrom? (.quote tag attributes key) rest := by
  obtain ⟨ne, word⟩ := isName_iff.1 h
  obtain ⟨c, cs, eq⟩ := List.exists_cons_of_ne_nil ne
  rw [eq] at word
  obtain ⟨hc, hcs⟩ := List.forall_mem_cons.1 word
  have first : readFrom? (.inside tag attributes) (c :: (cs ++ '=' :: rest)) =
      readFrom? (.key tag attributes [c]) (cs ++ '=' :: rest) := by
    simp [hc, isNameChar_ne hc (d := '>') rfl, isNameChar_ne hc (d := ' ') rfl]
  have others : readFrom? (.key tag attributes [c]) (cs ++ '=' :: rest) =
      readFrom? (.key tag attributes key.toList) ('=' :: rest) := by
    rw [readFrom?_taken _ hcs, eq]
    · rfl
    · intro read c rest hc
      simp [hc, isNameChar_ne hc (d := '=') rfl]
  rw [eq, List.cons_append, first, others]
  simp

theorem readFrom?_value {value : List Char} (h : '"' ∉ value) (tag : String)
    (attributes : List Attribute) (key : String) (rest : List Char) :
    readFrom? (.quote tag attributes key) ('"' :: (value ++ '"' :: rest)) =
      readFrom? (.inside tag (attributes ++ [⟨key, String.ofList value⟩])) rest := by
  have inner : ∀ c ∈ value, c ≠ '"' := fun c hc same => h (same ▸ hc)
  have taken : readFrom? (.value tag attributes key []) (value ++ '"' :: rest) =
      readFrom? (.value tag attributes key value) ('"' :: rest) := by
    rw [readFrom?_taken _ inner, List.nil_append]
    intro read c rest hc
    simp [hc]
  simp [taken]

theorem readFrom?_attribute {a : Attribute} (h : isName a.name = true) (tag : String)
    (attributes : List Attribute) (rest : List Char) :
    readFrom? (.inside tag attributes)
        ((" " ++ a.name ++ "=\"" ++ escapeValue a.value ++ "\"").toList ++ rest) =
      readFrom? (.inside tag (attributes ++ [escapeAttribute a])) rest := by
  have value := readFrom?_value (quote_not_mem_escapeValue a.value) tag attributes a.name rest
  rw [String.ofList_toList] at value
  simpa [readFrom?_key h, escapeAttribute] using value

theorem readFrom?_attributes {new : List Attribute} (h : ∀ a ∈ new, isName a.name = true)
    (tag : String) (attributes : List Attribute) (rest : List Char) :
    readFrom? (.inside tag attributes)
        ((String.join (new.map fun a =>
          " " ++ a.name ++ "=\"" ++ escapeValue a.value ++ "\"")).toList ++ '>' :: rest) =
      (readFrom? .text rest).map
        (·.afterTag (.opening tag (attributes ++ new.map escapeAttribute))) := by
  induction new generalizing attributes with
  | nil => simp
  | cons a new ih =>
    obtain ⟨ha, hnew⟩ := List.forall_mem_cons.1 h
    rw [List.map_cons, String.join_cons, String.toList_append, List.append_assoc,
      readFrom?_attribute ha, ih hnew]
    simp

theorem readFrom?_piece {piece : Piece} (h : piece.isNamed = true) (rest : List Char) :
    readFrom? .text (piece.write.toList ++ rest) = (readFrom? .text rest).map piece.before := by
  cases piece with
  | opening tag attributes =>
    obtain ⟨ht, ha⟩ := Bool.and_eq_true_iff.1 h
    have read := readFrom?_attributes (List.all_eq_true.1 ha) tag [] rest
    rw [← readFrom?_opening, ← readFrom?_start ht] at read
    · change _ = (readFrom? .text rest).map
        (·.afterTag (.opening tag (attributes.map escapeAttribute)))
      simpa [Piece.write] using read
    · cases attributes with
      | nil => exact .inl rfl
      | cons a attributes => exact .inr (by simp)
  | closing tag => exact readFrom?_closing h rest
  | text content =>
    have read := readFrom?_text (lt_not_mem_escapeText content) rest
    rwa [String.ofList_toList] at read

theorem readFrom?_pieces {pieces : List Piece} (h : ∀ piece ∈ pieces, piece.isNamed = true) :
    readFrom? .text (String.join (pieces.map Piece.write)).toList =
      some (pieces.foldr Piece.before {}) := by
  induction pieces with
  | nil => rfl
  | cons piece pieces ih =>
    obtain ⟨hp, hps⟩ := List.forall_mem_cons.1 h
    rw [List.map_cons, String.join_cons, String.toList_append, readFrom?_piece hp, ih hps]
    rfl

end Markup

/-- The tags of a tree with the texts after them. -/
def marks (html : Html) : List Mark := (html.pieces.foldr Piece.before {}).marks

def isElement : Html → Bool
  | .text _ => false
  | .element .. | .void .. => true

def isNamed (html : Html) : Bool := html.pieces.all Piece.isNamed

end TestScript.Html
