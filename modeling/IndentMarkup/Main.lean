import IndentMarkup.CommandLine.Run

/-!
The command line on real files and streams. Everything but reading and writing is decided by the
pure conversion.
-/

namespace IndentMarkup.CommandLine

def stringOf (text : Text) : String := String.ofList text

def errorDetails (error : IO.Error) : Text :=
  match error with
  | .noFileOrDirectory _ code details => s!"{details} (os error {code})".toList
  | .inappropriateType _ code details => s!"{details} (os error {code})".toList
  | .permissionDenied _ code details => s!"{details} (os error {code})".toList
  | .resourceExhausted _ code details => s!"{details} (os error {code})".toList
  | .invalidArgument _ code details => s!"{details} (os error {code})".toList
  | error => (toString error).toList

partial def readStream (stream : IO.FS.Stream) (read : ByteArray) : IO ByteArray := do
  let chunk ← stream.read 65536
  if chunk.isEmpty then return read else readStream stream (read ++ chunk)

def readSource (settings : Settings) : IO (Except Failure Bytes) :=
  match settings.input? with
  | none =>
    try
      return .ok (← readStream (← IO.getStdin) .empty).toList
    catch error => return .error (.noInput (errorDetails error))
  | some path =>
    try
      let file ← IO.FS.Handle.mk (stringOf path) .read
      return .ok (← file.readBinToEnd).toList
    catch error => return .error (.unreadable path (errorDetails error))

def writeResult (settings : Settings) (bytes : Bytes) : IO (Except Failure Unit) := do
  let bytes := ByteArray.mk bytes.toArray
  match settings.output? with
  | none =>
    try
      let stream ← IO.getStdout
      stream.write bytes
      stream.flush
      return .ok ()
    catch error => return .error (.noOutput (errorDetails error))
  | some path =>
    try
      IO.FS.writeBinFile (stringOf path) bytes
      return .ok ()
    catch error => return .error (.unwritable path (errorDetails error))

/-- The level named by the environment, up to which log records are shown. -/
def keptLevel : IO (Option LogLevel) := do
  match ← IO.getEnv "RUST_LOG" with
  | none => return none
  | some name => return LogLevel.ofName? name.toList

def convertFiles (settings : Settings) : IO (Except Failure Unit) := do
  let kept? ← keptLevel
  match ← readSource settings with
  | .error failure => return .error failure
  | .ok input =>
    let conversion := settings.convert input
    IO.eprint (stringOf (notesText (Record.shown kept?) conversion.notes))
    match conversion.result with
    | .error failure => return .error failure
    | .ok bytes => writeResult settings bytes

end IndentMarkup.CommandLine

open IndentMarkup IndentMarkup.CommandLine in
def main (arguments : List String) : IO UInt32 := do
  match Command.ofArguments (arguments.map String.toList) with
  | .error error =>
    IO.eprint (stringOf (errorText error.message))
    return 2
  | .ok (.tell text) =>
    IO.print (stringOf text)
    return 0
  | .ok (.convert settings) =>
    match ← convertFiles settings with
    | .ok () => return 0
    | .error failure =>
      IO.eprint (stringOf (errorText failure.message))
      return UInt32.ofNat failure.exit
