import IndentMarkup.Proofs.Html.Balance

/-!
The walk up to the start of a line. The moves made until then, which are the
same whatever follows the line, and the elements whose start tags they have
written and whose end tags they have not.
-/

namespace IndentMarkup.Html

/-- The moves that lines make one after another, with nothing finished after
the last of them. -/
def movesThrough (stack : List Scope) : List Line → List Move
  | [] => []
  | line :: rest =>
    (closedBy line stack).map .finish ++ lineEnd (keptBy line stack) ++
      .start line :: movesThrough (enter stack line) rest

/-- The moves between the start of the walk and the start of a line. -/
def movesBefore (before : List Line) (line : Line) : List Move :=
  movesThrough [] before ++
    ((closedBy line (stackAfter before)).map .finish ++ lineEnd (keptBy line (stackAfter before)))

/-- The names of the open elements after a move, innermost first. -/
def Move.nest (around : List Text) : Move → List Text
  | start line => names [line] ++ around
  | endLine => around
  | finish scope => around.drop (names [scope.line]).length

/-- The names of the elements that moves have started and not finished. -/
def nestingAfter (moves : List Move) : List Text := moves.foldl Move.nest []

theorem walk_append (stack : List Scope) (lines rest : List Line) :
    walk stack (lines ++ rest) =
      movesThrough stack lines ++ walk (lines.foldl enter stack) rest := by
  induction lines generalizing stack with
  | nil => rfl
  | cons line lines ih =>
      rw [List.cons_append, walk, movesThrough, ih, List.append_assoc, List.append_assoc,
        List.append_assoc, List.cons_append, List.foldl_cons]

theorem walk_append_cons (before : List Line) (line : Line) (after : List Line) :
    walk [] (before ++ line :: after) =
      movesBefore before line ++ .start line :: walk (enter (stackAfter before) line) after := by
  simp only [walk_append, walk, movesBefore, stackAfter, List.append_assoc]

section Nesting

theorem foldl_nest_finish (closed below : List Scope) :
    (closed.map Move.finish).foldl Move.nest (openNames (closed ++ below)) = openNames below := by
  induction closed with
  | nil => rfl
  | cons scope closed ih =>
      have hscope : openNames (scope :: closed ++ below) =
          names [scope.line] ++ openNames (closed ++ below) := openNames_append [scope] _
      rw [List.map_cons, List.foldl_cons, hscope, Move.nest, List.drop_left, ih]

theorem foldl_nest_lineEnd (around : List Text) (stack : List Scope) :
    (lineEnd stack).foldl Move.nest around = around := by
  cases stack with
  | nil => rfl
  | cons parent below =>
      rw [lineEnd]
      split <;> rfl

/-- Before a line starts, the elements among the scopes that it keeps are open. -/
theorem foldl_nest_closedBy (stack : List Scope) (line : Line) :
    ((closedBy line stack).map Move.finish ++ lineEnd (keptBy line stack)).foldl Move.nest
      (openNames stack) = openNames (keptBy line stack) := by
  have hstack : openNames stack = openNames (closedBy line stack ++ keptBy line stack) := by
    rw [closedBy_append_keptBy]
  rw [List.foldl_append, hstack, foldl_nest_finish, foldl_nest_lineEnd]

theorem foldl_nest_movesThrough (stack : List Scope) (lines : List Line) :
    (movesThrough stack lines).foldl Move.nest (openNames stack) =
      openNames (lines.foldl enter stack) := by
  induction lines generalizing stack with
  | nil => rfl
  | cons line lines ih =>
      rw [movesThrough, List.foldl_append, foldl_nest_closedBy, List.foldl_cons, Move.nest,
        ← openNames_enter, ih, List.foldl_cons]

/-- A line starts inside the elements that enclose it. -/
theorem nestingAfter_movesBefore (before : List Line) (line : Line) :
    nestingAfter (movesBefore before line) = (names (line.enclosing before)).reverse := by
  have hthrough : (movesThrough [] before).foldl Move.nest [] = openNames (stackAfter before) :=
    foldl_nest_movesThrough [] before
  rw [nestingAfter, movesBefore, List.foldl_append, hthrough, foldl_nest_closedBy,
    openNames_keptBy_stackAfter]

end Nesting

end IndentMarkup.Html
