import IndentMarkup.CommandLine.Run
import Mathlib.Tactic.SplitIfs

/-!
Where the bytes of a write go. A system is looked at through its files, and
what is asked of a write is that it fails before it has changed anything or
takes all the bytes. The sandbox keeps to that.
-/

namespace IndentMarkup.CommandLine

section View

/-- Where a path leads. -/
inductive Destination (File : Type)
  | file (file : File)
  | standardOutput
  /-- A device that keeps no bytes, or one that shows them elsewhere. -/
  | device
  deriving DecidableEq, Repr

/-- The files of a system: what each of them holds, if it is there, and where paths lead. -/
structure View (State File : Type) where
  content? : State → File → Option Bytes
  destination? : State → Text → Option (Destination File)

variable {State File : Type} (view : View State File)

/-- Every file holds what it held, and none is new. -/
def View.Unchanged (before after : State) : Prop :=
  ∀ file, view.content? after file = view.content? before file

/-- What there is after bytes have gone to a destination. A file holds them and nothing else, and no
other file changes. A device takes them; what goes to standard output is `output`. -/
def View.Receives (before after : State) (bytes output : Bytes) : Destination File → Prop
  | .file file =>
    output = [] ∧ view.content? after file = some bytes ∧
      ∀ other, other ≠ file → view.content? after other = view.content? before other
  | .standardOutput => view.Unchanged before after ∧ output = bytes
  | .device => view.Unchanged before after ∧ output = []

/-- A write fails and leaves everything as it was, or it takes all the bytes. -/
structure System.WritesWhole (system : System State) : Prop where
  refused : ∀ state path bytes, (system.write state path bytes).refusal? ≠ none →
    view.Unchanged state (system.write state path bytes).state ∧
      (system.write state path bytes).output = []
  written : ∀ state path bytes, (system.write state path bytes).refusal? = none →
    ∃ destination, view.destination? state path = some destination ∧
      view.Receives state (system.write state path bytes).state bytes
        (system.write state path bytes).output destination

end View

section Sandbox

variable {directory : Directory} {bytes : Bytes} {written : Written}

def Place.destination (directory : Directory) (name : Text) (place : Place) :
    Destination (Place × Text) :=
  match place.entry? directory name with
  | some (.device .standardOutput) => .standardOutput
  | some (.device _) => .device
  | _ => .file (place, name)

/-- The files of the sandbox, each by its directory and its name. -/
def sandboxView : View Directory (Place × Text) where
  content? directory file := file.1.file? directory file.2
  destination? directory path :=
    match directory.target path with
    | .ok (.name place name false) => some (place.destination directory name)
    | _ => none

theorem Device.write_eq_ok {device : Device} (h : device.write directory bytes = .ok written) :
    written.directory = directory ∧
      written.output = if device = .standardOutput then bytes else [] := by
  cases device with
  | full =>
      rw [Device.write] at h
      split at h
      · obtain rfl := Except.ok.inj h
        exact ⟨rfl, rfl⟩
      · cases h
  | terminal | program | closed => cases h
  | null | standardInput | standardOutput | standardError =>
      obtain rfl := Except.ok.inj h
      exact ⟨rfl, rfl⟩

theorem Place.create_eq_ok {place : Place} {name : Text}
    (h : place.create directory name bytes = .ok written) :
    written = { directory := place.putFile directory name bytes } := by
  rw [Place.create] at h
  split_ifs at h
  exact (Except.ok.inj h).symm

theorem Place.look_eq_ok {place : Place} {name : Text} {entry : Entry}
    (h : place.look directory name = .ok entry) : place.entry? directory name = some entry := by
  rw [Place.look] at h
  split_ifs at h
  split at h
  case h_1 found hfound => rw [hfound, Except.ok.inj h]
  case h_2 => cases h

theorem Place.entry?_of_look_notFound {place : Place} {name : Text}
    (h : place.look directory name = .error .notFound) : place.entry? directory name = none := by
  rw [Place.look] at h
  split_ifs at h
  · cases h
  · split at h
    case h_1 => cases h
    case h_2 hnone => exact hnone

theorem receives_putFile {place : Place} {name : Text}
    (h : written = { directory := place.putFile directory name bytes }) :
    sandboxView.Receives directory written.directory bytes written.output
      (.file (place, name)) := by
  rw [h]
  exact ⟨rfl, place.file?_putFile_self directory name bytes,
    fun other hother => Place.file?_putFile_of_ne directory bytes hother⟩

theorem receives_device {device : Device} (h : device.write directory bytes = .ok written) :
    sandboxView.Receives directory written.directory bytes written.output
      (if device = .standardOutput then .standardOutput else .device) := by
  obtain ⟨hdirectory, houtput⟩ := Device.write_eq_ok h
  rw [hdirectory, houtput]
  split_ifs
  · exact ⟨fun _ => rfl, rfl⟩
  · exact ⟨fun _ => rfl, rfl⟩

theorem Place.destination_of_device {place : Place} {name : Text} {device : Device}
    (h : place.entry? directory name = some (.device device)) :
    place.destination directory name =
      if device = .standardOutput then .standardOutput else .device := by
  rw [destination, h]
  cases device <;> rfl

theorem exists_receives_of_write {path : Text} (h : directory.write path bytes = .ok written) :
    ∃ destination, sandboxView.destination? directory path = some destination ∧
      sandboxView.Receives directory written.directory bytes written.output destination := by
  rw [Directory.write] at h
  split at h
  case h_1 | h_2 => cases h
  case h_3 place name slash htarget =>
  cases slash with
  | true => cases h
  | false =>
      refine ⟨place.destination directory name, by simp only [sandboxView, htarget], ?_⟩
      rw [if_neg (by decide)] at h
      split at h
      case h_1 hlook =>
        rw [Place.destination, Place.entry?_of_look_notFound hlook]
        exact receives_putFile (Place.create_eq_ok h)
      case h_2 | h_3 => cases h
      case h_4 old hlook =>
        rw [Place.destination, Place.look_eq_ok hlook]
        exact receives_putFile (Except.ok.inj h).symm
      case h_5 device hlook =>
        rw [Place.destination_of_device (Place.look_eq_ok hlook)]
        exact receives_device h

theorem writesWhole_sandbox (kept? : Option LogLevel) (input : Bytes) :
    (sandbox kept? input).WritesWhole sandboxView where
  refused := by
    intro directory path bytes hrefusal
    simp only [sandbox, Directory.writing] at hrefusal ⊢
    cases hwrite : directory.write path bytes with
    | ok written =>
        rw [hwrite] at hrefusal
        exact absurd rfl hrefusal
    | error cause => exact ⟨fun _ => rfl, rfl⟩
  written := by
    intro directory path bytes hrefusal
    simp only [sandbox, Directory.writing] at hrefusal ⊢
    cases hwrite : directory.write path bytes with
    | ok written => exact exists_receives_of_write hwrite
    | error cause =>
        rw [hwrite] at hrefusal
        cases hrefusal

end Sandbox

end IndentMarkup.CommandLine
