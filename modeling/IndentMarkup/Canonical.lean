import IndentMarkup.Text.Offset

/-!
Canonical text: the lines of a raw text that hold something, indented with one tab per level. A
text whose first indented line starts with a space is rewritten in units of that line's leading
spaces; any other text keeps its indentation.
-/

namespace IndentMarkup

/-- What a text is indented with. -/
inductive Indentation
  | tabs
  | spaces
  deriving DecidableEq, Repr

/-- The first line that starts with a space or a tab decides; tabs otherwise. -/
def Indentation.ofLines : List Text → Indentation
  | [] => .tabs
  | line :: rest =>
    if line.head? = some ' ' then .spaces
    else if line.head? = some '\t' then .tabs
    else ofLines rest

/-- The leading spaces of the first line that starts with one, or zero. -/
def unitWidth (lines : List Text) : Nat :=
  match lines.find? (·.head? = some ' ') with
  | some line => Text.countLeading ' ' line
  | none => 0

/-- The pieces that hold something other than white space. Carriage returns at the end of a piece
belong to the line break. -/
def significantLines (text : Text) : List Text :=
  (text.pieces.map (Text.dropEndWhile (· == '\r'))).filter fun line => !(Text.trim line).isEmpty

/-- One tab for every `width` leading spaces; spaces left over are dropped. -/
def retab (width : Nat) (line : Text) : Text :=
  let spaces := Text.countLeading ' ' line
  List.replicate (spaces / width) '\t' ++ Text.dropBytes spaces line

def canonicalLines (lines : List Text) : List Text :=
  match Indentation.ofLines lines with
  | .tabs => lines
  | .spaces =>
    let width := unitWidth lines
    if width = 0 then lines else lines.map (retab width)

def canonicalize (text : Text) : Text := Text.joinPieces (canonicalLines (significantLines text))

@[simp] theorem canonicalize_nil : canonicalize [] = [] := rfl

end IndentMarkup
