import IndentMarkup.Diagnostic
import IndentMarkup.Line.Basic

/-!
Depth jumps. A line may stand at most one level below the line before it, and the first line must
stand at level zero.
-/

namespace IndentMarkup

/-- The jump that a line makes after a line at level `previous`, or as the first line. A level is a
machine word, but the one below `previous` is one too: a line of a document has as many bytes as
its level, and a list of lines is refused before it is that deep. -/
def jumpAfter? (previous : Option Nat) (line : Line) : Option DepthJump :=
  let allowed := match previous with
    | none => 0
    | some level => level + 1
  if allowed < line.level then some ⟨previous.getD 0, line.level, line.content⟩ else none

def refuseJumpsAfter (previous : Option Nat) : List Line → Except DepthJump Unit
  | [] => .ok ()
  | line :: rest =>
    match jumpAfter? previous line with
    | some jump => .error jump
    | none => refuseJumpsAfter (some line.level) rest

/-- Refuses a document at its first depth jump. -/
def refuseJumps (lines : List Line) : Except DepthJump Unit := refuseJumpsAfter none lines

end IndentMarkup
