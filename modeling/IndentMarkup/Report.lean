import IndentMarkup.Diagnostic
import IndentMarkup.Json

/-!
Reports of diagnostics: one JSON document for programs, or a line per diagnostic for people.
-/

namespace IndentMarkup

inductive ReportForm
  | json
  | pretty
  deriving DecidableEq, Repr

def ReportForm.ofName? (name : Text) : Option ReportForm :=
  if name = "json".toList then some .json
  else if name = "pretty".toList then some .pretty
  else none

namespace Diagnostic

def fields (diagnostic : Diagnostic) : List (Text × Text) :=
  [("code".toList, diagnostic.code), ("severity".toList, diagnostic.severity.label),
   ("message".toList, diagnostic.message)]

def prettyLine (diagnostic : Diagnostic) : Text :=
  diagnostic.severity.label ++ ' ' :: diagnostic.code ++ ' ' :: diagnostic.message ++ ['\n']

end Diagnostic

def ReportForm.text (form : ReportForm) (diagnostics : List Diagnostic) : Text :=
  match form with
  | json => Json.recordsText (diagnostics.map Diagnostic.fields) ++ ['\n']
  | pretty => diagnostics.flatMap Diagnostic.prettyLine

end IndentMarkup
