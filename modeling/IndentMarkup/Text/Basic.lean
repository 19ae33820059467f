import IndentMarkup.Text.Blank

/-!
Text as a list of characters, with the two ways of cutting it into lines. Pieces are what stands
between line feeds; lines are pieces without the empty one after a final line feed and without
the carriage return that belongs to a line break.
-/

namespace IndentMarkup

abbrev Text := List Char

namespace Text

/-- The decimal digits of a number. -/
def ofNat (n : Nat) : Text := Nat.toDigits 10 n

/-- Drops the longest tail all of whose characters satisfy `p`. -/
def dropEndWhile (p : Char → Bool) (t : Text) : Text :=
  (t.reverse.dropWhile p).reverse

def trim (t : Text) : Text := dropEndWhile isBlank (t.dropWhile isBlank)

/-- The maximal runs of characters that are not blank. -/
def words (t : Text) : List Text := (t.splitOnP isBlank).filter (!·.isEmpty)

/-- The number of times `c` stands at the start. -/
def countLeading (c : Char) (t : Text) : Nat := (t.takeWhile (· == c)).length

/-- What stands between line feeds; there is always at least one piece. -/
def pieces (t : Text) : List Text := t.splitOn '\n'

def joinPieces (parts : List Text) : Text := ['\n'].intercalate parts

/-- Without one final carriage return. -/
def dropReturn (t : Text) : Text := if t.getLast? = some '\r' then t.dropLast else t

/-- A line ends at a line feed, or at a carriage return and a line feed. A last line without a
line feed keeps its carriage return, and no line follows a final line feed. -/
def lines (t : Text) : List Text :=
  t.pieces.dropLast.map dropReturn ++ t.pieces.getLast?.toList.filter (!·.isEmpty)

@[simp] theorem trim_nil : trim [] = [] := rfl

@[simp] theorem countLeading_nil (c : Char) : countLeading c [] = 0 := rfl

theorem countLeading_cons (c d : Char) (t : Text) :
    countLeading c (d :: t) = if d = c then countLeading c t + 1 else 0 := by
  by_cases h : d = c <;> simp [countLeading, h]

theorem pieces_ne_nil (t : Text) : t.pieces ≠ [] := by
  simp [pieces, List.splitOn_eq_splitOnP, List.splitOnP_ne_nil]

theorem joinPieces_pieces (t : Text) : joinPieces t.pieces = t := by
  simp [joinPieces, pieces]

end Text

end IndentMarkup
