import IndentMarkup.Line.Basic
import IndentMarkup.Text.Group

/-!
Inline blocks. A line with something after its first colon outside groups is a parent and a child
on one line. The child stands one level deeper and is not taken apart again.
-/

namespace IndentMarkup

/-- One level deeper. Levels are machine words, so zero comes behind the last one. -/
def nextLevel (level : Nat) : Nat := (level + 1) % UInt64.size

theorem nextLevel_of_lt {level : Nat} (h : level + 1 < UInt64.size) : nextLevel level = level + 1 :=
  Nat.mod_eq_of_lt h

namespace Line

/-- The offset after the first colon outside groups, if more than white space follows it. -/
def inlineBlockStart? (content : Text) : Option Nat :=
  ((Text.firstOutside? (· == ':') content).map (· + 1)).filter fun start =>
    !(Text.trim (Text.dropBytes start content)).isEmpty

/-- The parent keeps its colon, and everything else that it held. -/
def inlineBlock? (line : Line) : Option (Line × Line) :=
  (inlineBlockStart? line.content).map fun start =>
    ({ line with content := Text.takeBytes start line.content },
     { level := nextLevel line.level, content := Text.trim (Text.dropBytes start line.content) })

/-- The line itself, or parent and child if it holds an inline block. -/
def separate (line : Line) : List Line :=
  match line.inlineBlock? with
  | some (parent, child) => [parent, child]
  | none => [line]

end Line

def separateBlocks (lines : List Line) : List Line := lines.flatMap Line.separate

@[simp] theorem separateBlocks_nil : separateBlocks [] = [] := rfl

@[simp] theorem separateBlocks_cons (line : Line) (lines : List Line) :
    separateBlocks (line :: lines) = line.separate ++ separateBlocks lines := rfl

end IndentMarkup
