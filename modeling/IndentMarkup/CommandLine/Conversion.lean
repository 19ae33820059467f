import IndentMarkup.CommandLine.Settings
import IndentMarkup.Log

/-!
One conversion: from the bytes of a template to the bytes of its HTML or of its canonical text,
with everything that is said on the way.
-/

namespace IndentMarkup.CommandLine

structure Record where
  level : LogLevel
  target : Text
  message : Text
  deriving DecidableEq, Repr

/-- What a conversion says: log records, which show as the log is kept, and reports. -/
inductive Note
  | record (record : Record)
  | report (text : Text)
  deriving DecidableEq, Repr

/-- Why a run fails. The system says why it cannot read or write. -/
inductive Failure
  | unreadable (path cause : Text)
  | noInput (cause : Text)
  | undecodable (charset : Charset) (cause : DecodeError)
  /-- The text that a level is indented with is longer than memory can hold. -/
  | tooWide
  | uncompilable (cause : CompileError)
  | unencodable (charset : Charset) (cause : EncodeError)
  | unwritable (path cause : Text)
  | noOutput (cause : Text)
  deriving DecidableEq, Repr

namespace Failure

def message : Failure → Text
  | unreadable path cause => "failed to read ".toList ++ path ++ ": ".toList ++ cause
  | noInput cause => "failed to read stdin: ".toList ++ cause
  | undecodable charset cause =>
    "failed to decode input as ".toList ++ charset.label ++ ": ".toList ++ cause.message
  | tooWide => "capacity overflow".toList
  | uncompilable cause => "failed to compile template: ".toList ++ cause.message
  | unencodable charset cause =>
    "failed to encode output as ".toList ++ charset.label ++ ": ".toList ++ cause.message
  | unwritable path cause => "failed to write ".toList ++ path ++ ": ".toList ++ cause
  | noOutput cause => "failed to write stdout: ".toList ++ cause

/-- The exit status. Only a text that is too long crashes the program. -/
def exit : Failure → Nat
  | tooWide => 101
  | _ => 1

end Failure

def errorText (message : Text) : Text := "error: ".toList ++ message ++ ['\n']

/-- The part of the program that a record of this event names. -/
def eventTarget : Event → Text
  | .tabIndented _ => "tabml_core::normalize".toList
  | .spaceIndented _ _ => "tabml_core::normalize".toList
  | .inlineBlock _ _ => "tabml_core::lexer".toList
  | .written _ => "tabml_core::emit".toList

def commandTarget : Text := "tabml_cli".toList

namespace Record

def ofEvent (event : Event) : Record := ⟨event.level, eventTarget event, event.message⟩

def ofDiagnostic (diagnostic : Diagnostic) : Record :=
  ⟨.warn, commandTarget, diagnostic.code ++ ": ".toList ++ diagnostic.message⟩

/-- How a source is indented. The width is found whatever the style. -/
def ofIndentation (lines : List Text) : Record :=
  let style := match Indentation.ofLines lines with
    | .tabs => "Tabs".toList
    | .spaces => "Spaces".toList
  ⟨.info, commandTarget,
    "indentation: ".toList ++ style ++ ", width ".toList ++ Text.ofNat (unitWidth lines)⟩

end Record

structure Conversion where
  notes : List Note
  result : Except Failure Bytes

namespace Settings

/-- A tab per level, or as many spaces as the settings say. -/
def indent (settings : Settings) : Except Failure Html.Indent :=
  match settings.indent? with
  | none => .ok .tab
  | some width =>
    if width ≤ Text.maxLength then .ok { text := List.replicate width ' ' } else .error .tooWide

def options (settings : Settings) : Except Failure Options :=
  settings.indent.map fun indent => { strict := settings.strict, indent }

/-- Canonical text ends with a line feed unless it is empty. -/
def canonicalOutput (source : Text) : Text :=
  let canonical := canonicalize source
  if canonical.isEmpty then [] else canonical ++ ['\n']

def reportNotes (settings : Settings) (diagnostics : List Diagnostic) : List Note :=
  settings.report?.toList.map fun form => .report (form.text diagnostics)

/-- The output for a source, and what is said about it. -/
def produce (settings : Settings) (source : Text) : List Note × Except Failure Text :=
  if settings.canonicalOnly then
    ([.record (.ofIndentation (significantLines source)),
      .record (.ofEvent (canonicalizeEvent source))],
     .ok (canonicalOutput source))
  else
    match settings.options with
    | .error failure => ([], .error failure)
    | .ok options =>
      let rendering := renderLogged options source
      let events := rendering.events.map fun event => Note.record (.ofEvent event)
      match rendering.value with
      | .error error => (events, .error (.uncompilable error))
      | .ok compiled =>
        let warnings := compiled.diagnostics.map fun found => Note.record (.ofDiagnostic found)
        (events ++ warnings ++ settings.reportNotes compiled.diagnostics, .ok compiled.html)

def encodeOutput (settings : Settings) (output : Text) : Except Failure Bytes :=
  (settings.charset.encode output).mapError (.unencodable settings.charset)

def convert (settings : Settings) (input : Bytes) : Conversion :=
  match settings.charset.decode input with
  | .error error => ⟨[], .error (.undecodable settings.charset error)⟩
  | .ok source =>
    let (notes, output) := settings.produce source
    ⟨notes, output.bind settings.encodeOutput⟩

end Settings

end IndentMarkup.CommandLine
