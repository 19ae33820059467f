import IndentMarkup.CommandLine.Arguments
import IndentMarkup.CommandLine.Sandbox.Path
import IndentMarkup.CommandLine.System
import IndentMarkup.Text.Terminal

/-!
A run of the program in a sandbox: a working directory among the directories and devices of a
usual system, with standard output that takes everything.
-/

namespace IndentMarkup.CommandLine

/-- Levels take five places. -/
def Record.text (record : Record) : Text :=
  '[' :: record.level.label.rightpad 5 ' ' ++ ' ' :: record.target ++ "] ".toList ++
    record.message ++ ['\n']

/-- What shows of a record when records are kept at `kept?` or not at all. It may quote a source, so
control sequences are left out. -/
def Record.shown (kept? : Option LogLevel) (record : Record) : Text :=
  if kept?.any record.level.shownAt then Terminal.shown record.text else []

def Directory.writing (directory : Directory) (path : Text) (bytes : Bytes) :
    Writing Directory Text :=
  match directory.write path bytes with
  | .ok written =>
    { state := written.directory, output := written.output, messages := written.messages }
  | .error cause => { state := directory, refusal? := cause.message }

/-- The sandbox with these bytes on standard input. -/
def sandbox (kept? : Option LogLevel) (input : Bytes) : System Directory where
  command arguments := (Command.ofArguments arguments).mapError fun error => errorText error.message
  logged := Record.shown kept?
  crashText message := "panicked: ".toList ++ message ++ ['\n']
  input := .ok input
  read directory path := (directory.read input path).mapError PathError.message
  write := Directory.writing
  print _ := none

structure Invocation where
  arguments : List Text
  input : Bytes := []
  directory : Directory := {}
  /-- The level up to which log records show; without it none do. -/
  kept? : Option LogLevel := none

abbrev Outcome := Ending Directory

def Outcome.directory (outcome : Outcome) : Directory := outcome.state

def run (invocation : Invocation) : Outcome :=
  (sandbox invocation.kept? invocation.input).run invocation.directory invocation.arguments

end IndentMarkup.CommandLine
