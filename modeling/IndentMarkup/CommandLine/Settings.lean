import IndentMarkup.Charset.Basic
import IndentMarkup.Report

/-!
What a command line can ask for.
-/

namespace IndentMarkup.CommandLine

structure Settings where
  input? : Option Text := none
  output? : Option Text := none
  charset? : Option Charset := none
  strict : Bool := false
  indent? : Option Nat := none
  canonicalOnly : Bool := false
  report? : Option ReportForm := none
  deriving DecidableEq, Repr

def Settings.charset (settings : Settings) : Charset := settings.charset?.getD .ascii

inductive Command
  | convert (settings : Settings)
  /-- Nothing but a text on standard output, such as the version. -/
  | tell (text : Text)
  deriving DecidableEq, Repr

end IndentMarkup.CommandLine
