import IndentMarkup.Text.Basic

/-!
Findings about a template. They name the line by its text, and none of them stops the compiler:
every finding is a warning.
-/

namespace IndentMarkup

/-- A line more than one level deeper than the line before it. The first line of a document may
not be indented, and then the jump is from level zero. -/
structure DepthJump where
  fromLevel : Nat
  toLevel : Nat
  content : Text
  deriving DecidableEq, Repr

def DepthJump.message (jump : DepthJump) : Text :=
  "indentation jumps from level ".toList ++ Text.ofNat jump.fromLevel ++
    " to level ".toList ++ Text.ofNat jump.toLevel ++ " at `".toList ++ jump.content ++ "`".toList

inductive Severity
  | warning
  deriving DecidableEq, Repr

def Severity.label : Severity → Text
  | .warning => "warning".toList

inductive Diagnostic
  | depthJump (jump : DepthJump)
  /-- The attribute list of this line has no closing parenthesis. -/
  | unclosedGroup (content : Text)
  /-- This word of the line's attribute list is no pair of a name and a value. -/
  | unresolvedAttribute (word content : Text)
  deriving DecidableEq, Repr

namespace Diagnostic

def severity (_ : Diagnostic) : Severity := .warning

def code : Diagnostic → Text
  | depthJump _ => "W_DEPTH_JUMP".toList
  | unclosedGroup _ => "W_ATTR_UNCLOSED".toList
  | unresolvedAttribute _ _ => "W_ATTR_UNRESOLVED".toList

def message : Diagnostic → Text
  | depthJump jump => jump.message
  | unclosedGroup content =>
    "attribute list is never closed in `".toList ++ content ++ "`".toList
  | unresolvedAttribute word content =>
    "attribute `".toList ++ word ++ "` has no `name:value` form in `".toList ++ content ++
      "`".toList

end Diagnostic

end IndentMarkup
