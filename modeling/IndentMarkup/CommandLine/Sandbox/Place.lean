import IndentMarkup.CommandLine.Sandbox.Directory

/-!
Places: the working directory, and the directories and devices that a system has in any case. The
working directory stands among the temporary files.
-/

namespace IndentMarkup.CommandLine

/-- The parts of a path. Slashes next to each other separate once. -/
def partsOf (path : Text) : List Text := (path.splitOn '/').filter (!·.isEmpty)

/-- A directory. -/
inductive Place
  | working
  /-- The names on the way from the root. -/
  | system (names : List Text)
  deriving DecidableEq, Repr

/-- The directory of the system at a path that starts at the root. -/
def Place.ofPath (path : String) : Place := .system (partsOf path.toList)

def Place.parent : Place → Place
  | working => ofPath "/tmp"
  | system names => system names.dropLast

inductive Device
  /-- Takes everything and gives nothing. -/
  | null
  /-- Takes nothing, for want of space. -/
  | full
  /-- There is no terminal behind it. -/
  | terminal
  | standardInput
  | standardOutput
  | standardError
  /-- The program itself: it is not changed while it runs, and nothing is read from it. -/
  | program
  /-- A file of the system that is neither to be read nor to be written. -/
  | closed
  deriving DecidableEq, Repr

inductive Entry
  | directory (place : Place)
  | file (bytes : Bytes)
  | device (device : Device)
  deriving DecidableEq, Repr

def systemDirectories : List (List Text) :=
  ["/", "/boot", "/dev", "/dev/pts", "/dev/shm", "/etc", "/home", "/media", "/mnt", "/opt",
   "/proc", "/proc/self", "/proc/self/fd", "/proc/sys", "/root", "/run", "/run/lock", "/srv",
   "/sys", "/tmp", "/usr", "/usr/bin", "/usr/games", "/usr/include", "/usr/lib", "/usr/lib64",
   "/usr/libexec", "/usr/local", "/usr/sbin", "/usr/share", "/usr/src", "/var", "/var/backups",
   "/var/cache", "/var/lib", "/var/local", "/var/log", "/var/mail", "/var/opt", "/var/spool",
   "/var/tmp"].map fun path => partsOf path.toList

def systemDevices : List (List Text × Device) :=
  [("/dev/null", .null), ("/dev/zero", .null), ("/dev/random", .null), ("/dev/urandom", .null),
   ("/dev/full", .full), ("/dev/tty", .terminal), ("/dev/stdin", .standardInput),
   ("/dev/stdout", .standardOutput), ("/dev/stderr", .standardError),
   ("/proc/self/fd/0", .standardInput), ("/proc/self/fd/1", .standardOutput),
   ("/proc/self/fd/2", .standardError), ("/proc/self/exe", .program), ("/etc/passwd", .closed),
   ("/etc/group", .closed), ("/etc/hosts", .closed), ("/etc/hostname", .closed)].map
    fun entry => (partsOf entry.1.toList, entry.2)

/-- Names that lead to a directory elsewhere. -/
def systemLinks : List (List Text × Place) :=
  [("/bin", .ofPath "/usr/bin"), ("/dev/fd", .ofPath "/proc/self/fd"),
   ("/lib", .ofPath "/usr/lib"), ("/lib64", .ofPath "/usr/lib64"), ("/proc/self/cwd", .working),
   ("/proc/self/root", .ofPath "/"), ("/sbin", .ofPath "/usr/sbin"),
   ("/var/lock", .ofPath "/run/lock"), ("/var/run", .ofPath "/run")].map
    fun entry => (partsOf entry.1.toList, entry.2)

/-- What stands at the end of these names, counted from the root. -/
def systemEntry? (names : List Text) : Option Entry :=
  if systemDirectories.contains names then some (.directory (.system names))
  else
    match systemLinks.find? (·.1 = names) with
    | some link => some (.directory link.2)
    | none => (systemDevices.find? (·.1 = names)).map fun entry => .device entry.2

/-- Does the way from the root to a directory begin with this name? -/
def Place.isUnder (top : String) : Place → Bool
  | working => false
  | system names => names.head? = some top.toList

/-- A directory that shows the state of the system. -/
def Place.isView (place : Place) : Bool := place.isUnder "proc" || place.isUnder "sys"

namespace Place

/-- The bytes of the file of this name in a directory. -/
def file? (directory : Directory) (name : Text) : Place → Option Bytes
  | working => Files.get? directory.files name
  | system names => Files.get? directory.elsewhere (names ++ [name])

def putFile (directory : Directory) (name : Text) (bytes : Bytes) : Place → Directory
  | working => { directory with files := Files.put name bytes directory.files }
  | system names =>
    { directory with elsewhere := Files.put (names ++ [name]) bytes directory.elsewhere }

/-- What the system has in any case stands before any file. -/
def entry? (directory : Directory) (name : Text) (place : Place) : Option Entry :=
  let own? := match place with
    | working => none
    | system names => systemEntry? (names ++ [name])
  own?.or ((place.file? directory name).map .file)

@[simp] theorem file?_putFile_self (directory : Directory) (name : Text) (bytes : Bytes)
    (place : Place) : place.file? (place.putFile directory name bytes) name = some bytes := by
  cases place <;> exact Files.get?_put_self _ _ _

theorem file?_putFile_of_ne (directory : Directory) {name otherName : Text} (bytes : Bytes)
    {place other : Place} (h : (other, otherName) ≠ (place, name)) :
    other.file? (place.putFile directory name bytes) otherName =
      other.file? directory otherName := by
  cases place <;> cases other <;> try rfl
  case working.working =>
    exact Files.get?_put_of_ne _ _ (by simpa using h)
  case system.system =>
    refine Files.get?_put_of_ne _ _ fun heq => h ?_
    obtain ⟨rfl, rfl⟩ := List.append_singleton_inj.mp heq
    rfl

end Place

end IndentMarkup.CommandLine
