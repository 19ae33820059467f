import IndentMarkup.Document
import IndentMarkup.Html
import IndentMarkup.Canonical

/-!
Compiling a template to HTML. Only two things stop it: a template without content lines, and, when
the options ask for strict depth, a depth jump.
-/

namespace IndentMarkup

structure Options where
  /-- Refuse depth jumps instead of reporting them. -/
  strict : Bool := false
  /-- Written once per level at the start of an output line. -/
  indent : Html.Indent := .tab
  deriving DecidableEq, Repr

structure Compiled where
  html : Text
  diagnostics : List Diagnostic
  deriving DecidableEq, Repr

inductive CompileError
  | emptyInput
  | depthJump (jump : DepthJump)
  deriving DecidableEq, Repr

def CompileError.message : CompileError → Text
  | emptyInput => "input contains no content lines".toList
  | depthJump jump =>
    "indentation jumps from level ".toList ++ Text.ofNat jump.fromLevel ++
      " to level ".toList ++ Text.ofNat jump.toLevel ++ " at `".toList ++ jump.content ++ "`".toList

/-- Why a document is not compiled, if it is not. -/
def refusal? (options : Options) (document : Document) : Option CompileError :=
  if document.lines.isEmpty then some .emptyInput
  else if options.strict then
    match refuseJumps document.lines with
    | .error jump => some (.depthJump jump)
    | .ok () => none
  else none

def compile (options : Options) (canonical : Text) : Except CompileError Compiled :=
  let document := Document.parse canonical
  match refusal? options document with
  | some error => .error error
  | none => .ok ⟨Html.write options.indent document.lines, document.diagnostics⟩

/-- Compiles a raw text. -/
def render (options : Options) (raw : Text) : Except CompileError Compiled :=
  compile options (canonicalize raw)

end IndentMarkup
