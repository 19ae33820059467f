import IndentMarkup.CommandLine.Conversion

/-!
A run of the program on a system. What reads the command line, what keeps the log, the standard
streams and the files all belong to the system; the program decides what it asks of them, and when.
Files may change only when everything else has succeeded.
-/

namespace IndentMarkup.CommandLine

/-- What there is after bytes have been written at a path: the files, what went to the standard
streams, and why not all bytes were taken, if they were not. -/
structure Writing (State Cause : Type) where
  state : State
  output : Bytes := []
  messages : Bytes := []
  refusal? : Option Cause := none

/-- Standard output has taken some bytes and takes no more. -/
structure Refusal where
  taken : Nat
  cause : Text
  deriving DecidableEq, Repr

/-- A system on which the program runs. The states are those of its files. What is said on standard
error is always taken. -/
structure System (State : Type) where
  /-- What a command line asks for, or what is said about one that cannot be accepted. -/
  command : List Text → Except Text Command
  /-- What the log shows of a record. -/
  logged : Record → Text
  /-- What a crash of the program says. -/
  crashText : Text → Text
  /-- The bytes on standard input, or why they cannot be read. -/
  input : Except Text Bytes
  /-- The bytes at a path, or why they cannot be read. -/
  read : State → Text → Except Text Bytes
  write : State → Text → Bytes → Writing State Text
  /-- Where standard output refuses these bytes, if it does. -/
  print : Bytes → Option Refusal

/-- What a run leaves behind. -/
structure Ending (State : Type) where
  exit : Nat
  output : Bytes
  messages : Bytes
  state : State
  deriving DecidableEq

/-- The text of a note, with a log that shows records in this way. -/
def Note.text (logged : Record → Text) : Note → Text
  | record r => logged r
  | report t => t

def notesText (logged : Record → Text) (notes : List Note) : Text :=
  notes.flatMap (Note.text logged)

namespace System

variable {State : Type}

def readInput (system : System State) (settings : Settings) (state : State) :
    Except Failure Bytes :=
  match settings.input? with
  | none => system.input.mapError .noInput
  | some path => (system.read state path).mapError (.unreadable path)

/-- What standard output takes of these bytes. -/
def printed (system : System State) (bytes : Bytes) : Bytes :=
  match system.print bytes with
  | none => bytes
  | some refusal => bytes.take refusal.taken

def writeOutput (system : System State) (settings : Settings) (state : State) (bytes : Bytes) :
    Writing State Failure :=
  match settings.output? with
  | none =>
    { state, output := system.printed bytes
      refusal? := (system.print bytes).map fun refusal => .noOutput refusal.cause }
  | some path =>
    let writing := system.write state path bytes
    { writing with refusal? := writing.refusal?.map (.unwritable path) }

def failureText (system : System State) (failure : Failure) : Text :=
  match failure with
  | .tooWide => system.crashText failure.message
  | _ => errorText failure.message

/-- The end of a conversion that has said these notes and written. -/
def finish (system : System State) (notes : List Note) (writing : Writing State Failure) :
    Ending State :=
  let said := Utf8.encode (notesText system.logged notes) ++ writing.messages
  match writing.refusal? with
  | none => ⟨0, writing.output, said, writing.state⟩
  | some failure =>
    ⟨failure.exit, writing.output, said ++ Utf8.encode (system.failureText failure), writing.state⟩

def convert (system : System State) (settings : Settings) (state : State) : Ending State :=
  match system.readInput settings state with
  | .error failure => system.finish [] { state, refusal? := failure }
  | .ok input =>
    let conversion := settings.convert input
    match conversion.result with
    | .error failure => system.finish conversion.notes { state, refusal? := failure }
    | .ok bytes => system.finish conversion.notes (system.writeOutput settings state bytes)

/-- A command line that cannot be accepted gives exit status 2. -/
def run (system : System State) (state : State) (arguments : List Text) : Ending State :=
  match system.command arguments with
  | .error message => ⟨2, [], Utf8.encode message, state⟩
  | .ok (.tell text) => ⟨0, system.printed (Utf8.encode text), [], state⟩
  | .ok (.convert settings) => system.convert settings state

end System

end IndentMarkup.CommandLine
