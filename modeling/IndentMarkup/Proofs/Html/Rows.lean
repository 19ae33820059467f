import IndentMarkup.Proofs.Html.Forest
import IndentMarkup.Proofs.Text.Pieces

/-!
The output lines of a document. A line of the document starts one, on which
an element without children ends too; an element with children ends on one of
its own. Rows without line feeds that do not start with a tab are found again
in the pieces of the text they are written to.
-/

namespace IndentMarkup

open Text

namespace Html

/-- An output line without its indentation. -/
structure Row where
  level : Nat
  text : Text
  deriving DecidableEq, Repr

/-- A row in a text that is indented with this unit. -/
def Row.write (unit : Text) (row : Row) : Text :=
  (List.replicate row.level unit).flatten ++ row.text ++ ['\n']

/-- The row that stands on a piece of a text indented with tabs. -/
def Row.ofPiece (piece : Text) : Row :=
  ⟨countLeading '\t' piece, piece.dropWhile (· == '\t')⟩

end Html

open Html

namespace Line

def startRow (line : Line) (leaf : Bool) : Row :=
  ⟨line.level,
    match line.tag with
    | .text => line.content
    | .element name =>
      Forest.startTag name line.attrs ++ line.body ++ if leaf then Forest.endTag name else []⟩

/-- The row after the children of a line. -/
def endRow? (line : Line) (leaf : Bool) : Option Row :=
  match line.tag with
  | .text => none
  | .element name => if leaf then none else some ⟨line.level, Forest.endTag name⟩

end Line

namespace Forest

def toLines : Forest → List Line
  | empty => []
  | tree line children siblings => line :: children.toLines ++ siblings.toLines

def rows : Forest → List Row
  | empty => []
  | tree line children siblings =>
    line.startRow children.isEmpty :: children.rows ++
      (line.endRow? children.isEmpty).toList ++ siblings.rows

theorem toLines_ofLines (lines : List Line) : (ofLines lines).toLines = lines := by
  fun_induction ofLines lines with
  | case1 => rfl
  | case2 line rest ihDescendants ihFollowing =>
      rw [toLines, ihDescendants, ihFollowing, List.cons_append, descendants_append_following]

theorem rows_eq_nil_of_isEmpty {forest : Forest} (h : forest.isEmpty = true) :
    forest.rows = [] := by
  cases forest with
  | empty => rfl
  | tree line children siblings => cases h

theorem treeText_eq_flatMap_rows (unit : Text) (line : Line) (leaf : Bool) (inner : List Row)
    (hinner : leaf = true → inner = []) :
    treeText unit line leaf (inner.flatMap (Row.write unit)) =
      (line.startRow leaf :: inner ++ (line.endRow? leaf).toList).flatMap (Row.write unit) := by
  cases htag : line.tag with
  | text => simp [treeText, Line.startRow, Line.endRow?, Row.write, htag]
  | element name =>
      cases leaf with
      | true => simp [treeText, Line.startRow, Line.endRow?, Row.write, htag, hinner rfl]
      | false => simp [treeText, Line.startRow, Line.endRow?, Row.write, htag]

end Forest

namespace Html

open Forest

/-- Writing a line with what follows it: the line around its descendants, and
then the lines after them. -/
theorem write_cons (indent : Indent) (line : Line) (rest : List Line) :
    write indent (line :: rest) =
      treeText indent.unit line (descendants line rest).isEmpty
          (write indent (descendants line rest)) ++
        write indent (following line rest) := by
  cases hleaf : (descendants line rest).isEmpty with
  | true =>
      rw [List.isEmpty_iff.mp hleaf, write_nil, ← startText_append_finishText]
      simp [write, walk_cons, hleaf, Move.text]
  | false =>
      rw [← startText_append_inner_append_finishText]
      simp [write, walk_cons, hleaf, Move.text]

/-- A document is written row by row. -/
theorem write_eq_flatMap_rows (indent : Indent) (lines : List Line) :
    write indent lines = (ofLines lines).rows.flatMap (Row.write indent.unit) := by
  fun_induction ofLines lines with
  | case1 => rfl
  | case2 line rest ihDescendants ihFollowing =>
      rw [write_cons, ihDescendants, ihFollowing, ← isEmpty_ofLines,
        treeText_eq_flatMap_rows _ _ _ _ rows_eq_nil_of_isEmpty, rows, ← List.flatMap_append]

section Pieces

/-- A row that can be cut off at its line feed and its tabs. -/
structure Row.Separable (row : Row) : Prop where
  no_lineFeed : '\n' ∉ row.text
  no_tab : row.text.head? ≠ some '\t'

theorem Row.ofPiece_tabs_append {row : Row} (h : row.Separable) :
    ofPiece (List.replicate row.level '\t' ++ row.text) = row := by
  rw [ofPiece, countLeading_replicate_append _ h.no_tab, dropWhile_replicate_append _ h.no_tab]

theorem Row.Separable.lineFeed_notMem {row : Row} (h : row.Separable) :
    '\n' ∉ List.replicate row.level '\t' ++ row.text := by
  simp [h.no_lineFeed]

theorem flatMap_write_tab_cons (row : Row) (rows : List Row) :
    (row :: rows).flatMap (Row.write ['\t']) =
      List.replicate row.level '\t' ++ row.text ++ '\n' :: rows.flatMap (Row.write ['\t']) := by
  simp [Row.write]

/-- There is nothing after the last line feed. -/
theorem map_ofPiece_pieces_flatMap_write {rows : List Row} (h : ∀ row ∈ rows, row.Separable) :
    (pieces (rows.flatMap (Row.write ['\t']))).map Row.ofPiece = rows ++ [⟨0, []⟩] := by
  induction rows with
  | nil => rfl
  | cons row rows ih =>
      rw [List.forall_mem_cons] at h
      rw [flatMap_write_tab_cons, pieces_append_lineFeed, pieces_eq_singleton h.1.lineFeed_notMem,
        List.map_append, ih h.2, List.map_singleton, Row.ofPiece_tabs_append h.1]
      rfl

end Pieces

end Html

end IndentMarkup
