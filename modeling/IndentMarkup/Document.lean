import IndentMarkup.Depth
import IndentMarkup.Line.InlineBlock
import IndentMarkup.Line.Outline
import IndentMarkup.Selector

/-!
Documents: the read lines of a canonical text with everything found on the way. Findings come line
by line, and a line's depth jump comes before what its attribute list gives.
-/

namespace IndentMarkup

structure Document where
  lines : List Line
  diagnostics : List Diagnostic
  deriving DecidableEq, Repr

namespace Document

def diagnosticsAfter (previous : Option Nat) : List Line → List Diagnostic
  | [] => []
  | line :: rest =>
    (jumpAfter? previous line).toList.map .depthJump ++ line.findings ++
      diagnosticsAfter (some line.level) rest

def ofLines (lines : List Line) : Document :=
  ⟨lines.map Line.read, diagnosticsAfter none lines⟩

def parse (canonical : Text) : Document := ofLines (separateBlocks (outline canonical))

end Document

end IndentMarkup
