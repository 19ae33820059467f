import IndentMarkup.CommandLine.Sandbox.Place
import IndentMarkup.Text.Offset

/-!
Reading and writing at a path. A path is followed from directory to directory; only its last part
may name something that is no directory, or nothing at all.
-/

namespace IndentMarkup.CommandLine

inductive PathError
  | notFound
  | noDevice
  | permissionDenied
  | notADirectory
  | isADirectory
  | textBusy
  | noSpace
  | nameTooLong
  deriving DecidableEq, Repr

def PathError.message : PathError → Text
  | notFound => "No such file or directory (os error 2)".toList
  | noDevice => "No such device or address (os error 6)".toList
  | permissionDenied => "Permission denied (os error 13)".toList
  | notADirectory => "Not a directory (os error 20)".toList
  | isADirectory => "Is a directory (os error 21)".toList
  | textBusy => "Text file busy (os error 26)".toList
  | noSpace => "No space left on device (os error 28)".toList
  | nameTooLong => "File name too long (os error 36)".toList

/-- The longest name of a file, in bytes. A directory that shows the state of the system knows no
such limit: it just does not have the name. -/
def maxNameLength : Nat := 255

/-- The longest path, in bytes. -/
def maxPathLength : Nat := 4095

def Place.look (directory : Directory) (place : Place) (name : Text) : Except PathError Entry :=
  if maxNameLength < Text.byteLength name ∧ !place.isView then .error .nameTooLong
  else
    match place.entry? directory name with
    | some entry => .ok entry
    | none => .error .notFound

/-- The end of a path. -/
inductive Target
  | directory
  /-- A name that has not been looked up. After a slash it must be the name of a directory. -/
  | name (place : Place) (name : Text) (slash : Bool)
  deriving DecidableEq, Repr

namespace Directory

def follow (directory : Directory) (slash : Bool) (place : Place) :
    List Text → Except PathError Target
  | [] => .ok .directory
  | part :: rest =>
    if part = ".".toList then directory.follow slash place rest
    else if part = "..".toList then directory.follow slash place.parent rest
    else if rest.isEmpty then .ok (.name place part slash)
    else
      match place.look directory part with
      | .error error => .error error
      | .ok (.directory place) => directory.follow slash place rest
      | .ok _ => .error .notADirectory

def target (directory : Directory) (path : Text) : Except PathError Target :=
  if maxPathLength < Text.byteLength path then .error .nameTooLong
  else
    directory.follow (path.getLast? == some '/')
      (if path.head? = some '/' then .system [] else .working) (partsOf path)

end Directory

def Device.read (input : Bytes) : Device → Except PathError Bytes
  | standardInput => .ok input
  | terminal => .error .noDevice
  | closed => .error .permissionDenied
  | _ => .ok []

/-- The bytes at a path, when standard input holds `input`. -/
def Directory.read (directory : Directory) (input : Bytes) (path : Text) :
    Except PathError Bytes :=
  match directory.target path with
  | .error error => .error error
  | .ok .directory => .error .isADirectory
  | .ok (.name place name slash) =>
    match place.look directory name with
    | .error error => .error error
    | .ok (.directory _) => .error .isADirectory
    | .ok (.file bytes) => if slash then .error .notADirectory else .ok bytes
    | .ok (.device device) => if slash then .error .notADirectory else device.read input

/-- What there is after a write: the files, and what went to the standard streams. -/
structure Written where
  directory : Directory
  output : Bytes := []
  messages : Bytes := []
  deriving DecidableEq, Repr

def Device.write (directory : Directory) (bytes : Bytes) : Device → Except PathError Written
  | standardOutput => .ok { directory, output := bytes }
  | standardError => .ok { directory, messages := bytes }
  | full => if bytes.isEmpty then .ok { directory } else .error .noSpace
  | terminal => .error .noDevice
  | program => .error .textBusy
  | closed => .error .permissionDenied
  | _ => .ok { directory }

/-- Puts a file that is not there yet into a directory. Directories that show the state of the
system take no files. -/
def Place.create (directory : Directory) (name : Text) (bytes : Bytes) (place : Place) :
    Except PathError Written :=
  if place.isUnder "proc" then .error .notFound
  else if place.isUnder "sys" ∨ place = .ofPath "/dev/pts" then .error .permissionDenied
  else .ok { directory := place.putFile directory name bytes }

/-- Writing fails as a whole or writes all the bytes. -/
def Directory.write (directory : Directory) (path : Text) (bytes : Bytes) :
    Except PathError Written :=
  match directory.target path with
  | .error error => .error error
  | .ok .directory => .error .isADirectory
  | .ok (.name place name slash) =>
    if slash then .error .isADirectory
    else
      match place.look directory name with
      | .error .notFound => place.create directory name bytes
      | .error error => .error error
      | .ok (.directory _) => .error .isADirectory
      | .ok (.file _) => .ok { directory := place.putFile directory name bytes }
      | .ok (.device device) => device.write directory bytes

end IndentMarkup.CommandLine
