import IndentMarkup.Line.Basic

/-!
HTML for a list of lines. The lines are walked in order against a stack of open scopes, innermost
first: a line closes every scope at its own level or deeper and then opens its own. The walk gives
a list of moves, and the text is what the moves write one after another.
-/

namespace IndentMarkup.Html

/-- What a level is indented with: a text, and how many times it stands. -/
structure Indent where
  text : Text
  times : Nat := 1
  deriving DecidableEq, Repr

def Indent.tab : Indent := { text := ['\t'] }

/-- A line that has been opened and not yet closed. -/
structure Scope where
  line : Line
  /-- The output line with the start tag has not been ended. -/
  pending : Bool
  deriving DecidableEq, Repr

inductive Move
  | start (line : Line)
  /-- Ends the output line of a start tag whose element has children. -/
  | endLine
  | finish (scope : Scope)
  deriving DecidableEq, Repr

/-- Text ends its own output line; an element waits for its children. -/
def Scope.ofLine (line : Line) : Scope := ⟨line, line.tag != .text⟩

def closedBy (line : Line) (stack : List Scope) : List Scope :=
  stack.takeWhile fun scope => line.level ≤ scope.line.level

def keptBy (line : Line) (stack : List Scope) : List Scope :=
  stack.dropWhile fun scope => line.level ≤ scope.line.level

/-- The innermost scope gets a child, so its output line ends if it has not. -/
def settle : List Scope → List Scope
  | [] => []
  | parent :: rest => { parent with pending := false } :: rest

def lineEnd : List Scope → List Move
  | [] => []
  | parent :: _ => if parent.pending then [.endLine] else []

/-- The open scopes after a line has been opened. -/
def enter (stack : List Scope) (line : Line) : List Scope :=
  Scope.ofLine line :: settle (keptBy line stack)

def walk (stack : List Scope) : List Line → List Move
  | [] => stack.map .finish
  | line :: rest =>
    (closedBy line stack).map .finish ++ lineEnd (keptBy line stack) ++
      .start line :: walk (enter stack line) rest

def indentation (indent : Indent) (level : Nat) : Text :=
  (List.replicate (level * indent.times) indent.text).flatten

/-- Values stand between double quotes as they are. -/
def attributeText (item : Attribute) : Text :=
  ' ' :: item.key ++ "=\"".toList ++ item.value ++ "\"".toList

def startText (indent : Indent) (line : Line) : Text :=
  indentation indent line.level ++
    match line.tag with
    | .text => line.content ++ ['\n']
    | .element name =>
      '<' :: name ++ line.attrs.toList.flatMap attributeText ++ '>' :: line.body

def finishText (indent : Indent) (scope : Scope) : Text :=
  match scope.line.tag with
  | .text => []
  | .element name =>
    (if scope.pending then [] else indentation indent scope.line.level) ++
      "</".toList ++ name ++ ">\n".toList

def Move.text (indent : Indent) : Move → Text
  | start line => startText indent line
  | endLine => ['\n']
  | finish scope => finishText indent scope

def write (indent : Indent) (lines : List Line) : Text := (walk [] lines).flatMap (Move.text indent)

@[simp] theorem write_nil (indent : Indent) : write indent [] = [] := rfl

end IndentMarkup.Html
