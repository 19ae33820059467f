import IndentMarkup.Compile

/-!
Rendering for a host page that knows none of the compiler's types: diagnostics come as plain
records of text, and a failure as its message.
-/

namespace IndentMarkup.Embedding

structure Finding where
  code : Text
  message : Text
  severity : Text
  deriving DecidableEq, Repr

structure Page where
  html : Text
  diagnostics : List Finding
  deriving DecidableEq, Repr

def Finding.ofDiagnostic (diagnostic : Diagnostic) : Finding :=
  ⟨diagnostic.code, diagnostic.message, diagnostic.severity.label⟩

def Page.ofCompiled (compiled : Compiled) : Page :=
  ⟨compiled.html, compiled.diagnostics.map .ofDiagnostic⟩

def render (options : Options) (raw : Text) : Except Text Page :=
  match IndentMarkup.render options raw with
  | .ok compiled => .ok (.ofCompiled compiled)
  | .error error => .error error.message

end IndentMarkup.Embedding
