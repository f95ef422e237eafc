import TestScript.Proofs.Page.Reading

namespace TestScript.Html

theorem piecesOfAll_eq_flatMap (htmls : List Html) : piecesOfAll htmls = htmls.flatMap pieces := by
  induction htmls with
  | nil => rfl
  | cons html htmls ih => rw [piecesOfAll, ih, List.flatMap_cons]

/-- What comes later changes nothing in the marks that come before it. -/
theorem foldr_before_marks (pieces : List Piece) (rest : List Mark) :
    pieces.foldr Piece.before { marks := rest } =
      { lead := (pieces.foldr Piece.before {}).lead
        marks := (pieces.foldr Piece.before {}).marks ++ rest } := by
  induction pieces with
  | nil => rfl
  | cons piece pieces ih =>
    rw [List.foldr_cons, ih]
    cases piece <;> rfl

theorem foldr_before_element {html : Html} (h : html.isElement = true) (rest : List Mark) :
    html.pieces.foldr Piece.before { marks := rest } = { marks := html.marks ++ rest } := by
  rw [foldr_before_marks]
  cases html with
  | text => cases h
  | element | void => rfl

theorem foldr_before_elements {htmls : List Html} (h : htmls.all isElement = true)
    (rest : List Mark) :
    (piecesOfAll htmls).foldr Piece.before { marks := rest } =
      { marks := htmls.flatMap marks ++ rest } := by
  induction htmls with
  | nil => rfl
  | cons html htmls ih =>
    obtain ⟨first, others⟩ := Bool.and_eq_true_iff.1 h
    rw [piecesOfAll, List.foldr_append, ih others, foldr_before_element first, List.flatMap_cons,
      List.append_assoc]

section

variable (tag : String) (attributes : List Attribute)

theorem marks_void :
    marks (.void tag attributes) = [⟨.opening tag (attributes.map escapeAttribute), ""⟩] :=
  rfl

theorem marks_leaf (content : String) :
    marks (.element tag attributes [.text content]) =
      [⟨.opening tag (attributes.map escapeAttribute), escapeText content⟩, ⟨.closing tag, ""⟩] := by
  simp [marks, pieces, piecesOfAll, Piece.before, Markup.afterTag, Markup.afterText]

theorem marks_node {children : List Html} (h : children.all isElement = true) :
    marks (.element tag attributes children) =
      ⟨.opening tag (attributes.map escapeAttribute), ""⟩ ::
        (children.flatMap marks ++ [⟨.closing tag, ""⟩]) := by
  have closed : [Piece.closing tag].foldr Piece.before {} = { marks := [⟨.closing tag, ""⟩] } := rfl
  rw [marks, pieces, List.foldr_cons, List.foldr_append, closed, foldr_before_elements h]
  rfl

theorem isNamed_void :
    isNamed (.void tag attributes) = (isName tag && attributes.all (isName ·.name)) := by
  simp [isNamed, pieces, Piece.isNamed]

theorem isNamed_element (children : List Html) :
    isNamed (.element tag attributes children) =
      (isName tag && attributes.all (isName ·.name) && children.all isNamed) := by
  have inner : (piecesOfAll children).all Piece.isNamed = children.all isNamed := by
    rw [piecesOfAll_eq_flatMap, List.all_flatMap]
    rfl
  rw [isNamed, pieces, List.all_cons, List.all_append, inner]
  cases h : isName tag <;> simp [Piece.isNamed, h]

end

@[simp] theorem isNamed_text (content : String) : isNamed (.text content) = true := rfl

/-- The name of the element that a piece begins. -/
def Piece.opened? : Piece → Option String
  | .opening tag _ => some tag
  | .closing _ | .text _ => none

/-- An element of this name begins somewhere in the tree. -/
def opens (name : String) (html : Html) : Bool :=
  html.pieces.any (·.opened? == some name)

theorem opened_foldr_before (pieces : List Piece) :
    (pieces.foldr Piece.before {}).marks.filterMap Mark.opened? =
      pieces.filterMap Piece.opened? := by
  induction pieces with
  | nil => rfl
  | cons piece pieces ih =>
    cases piece with
    | opening | closing =>
      simp [Piece.before, Markup.afterTag, Mark.opened?, Piece.opened?, List.filterMap_cons, ih]
    | text => simp [Piece.before, Markup.afterText, Piece.opened?, List.filterMap_cons, ih]

section

variable (name tag : String) (attributes : List Attribute)

@[simp] theorem opens_text (content : String) : opens name (.text content) = false := rfl

@[simp] theorem opens_void : opens name (.void tag attributes) = (tag == name) := by
  simp [opens, pieces, Piece.opened?]

@[simp] theorem opens_element (children : List Html) :
    opens name (.element tag attributes children) = (tag == name || children.any (opens name)) := by
  have inner : (piecesOfAll children).any (·.opened? == some name) = children.any (opens name) := by
    rw [piecesOfAll_eq_flatMap, List.any_flatMap]
    rfl
  rw [opens, pieces, List.any_cons, List.any_append, inner]
  simp [Piece.opened?]

/-- No mark of the tree begins such an element if the tree does not open one. -/
theorem opened?_ne_of_opens_eq_false {name : String} {html : Html} (h : html.opens name = false)
    {m : Mark} (hm : m ∈ html.marks) : m.opened? ≠ some name := by
  intro opened
  have among : name ∈ html.pieces.filterMap Piece.opened? := by
    rw [← opened_foldr_before]
    exact List.mem_filterMap.2 ⟨m, hm, opened⟩
  obtain ⟨piece, hp, same⟩ := List.mem_filterMap.1 among
  exact List.any_eq_false.1 h piece hp (beq_iff_eq.2 same)

end

theorem read?_render {html : Html} (element : html.isElement = true) (named : html.isNamed = true) :
    Markup.read? html.render = some { marks := html.marks } := by
  have read := Markup.readFrom?_pieces (List.all_eq_true.1 named)
  have empty := foldr_before_element element []
  rw [List.append_nil] at empty
  exact read.trans (congrArg some empty)

end TestScript.Html
