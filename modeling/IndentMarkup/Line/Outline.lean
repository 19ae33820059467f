import IndentMarkup.Line.Basic
import IndentMarkup.Text.Offset

/-!
The outline of a canonical text: its lines with level and trimmed content, nothing read yet. Lines
without content carry no nesting and are left out.
-/

namespace IndentMarkup

/-- The level is the number of leading tabs. -/
def Line.ofText? (text : Text) : Option Line :=
  let level := Text.countLeading '\t' text
  let content := Text.trim (Text.dropBytes level text)
  if content.isEmpty then none else some { level, content }

def outline (canonical : Text) : List Line := canonical.lines.filterMap Line.ofText?

end IndentMarkup
