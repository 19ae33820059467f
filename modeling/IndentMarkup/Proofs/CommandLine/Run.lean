import IndentMarkup.CommandLine.System
import IndentMarkup.Proofs.CommandLine.Conversion

/-!
A conversion of what stands on standard input, and what it says when no log is
kept: the reports alone.
-/

namespace IndentMarkup.CommandLine

section Notes

variable {logged : Record → Text} (hsilent : ∀ record, logged record = [])

theorem notesText_append (logged : Record → Text) (notes notes' : List Note) :
    notesText logged (notes ++ notes') = notesText logged notes ++ notesText logged notes' :=
  List.flatMap_append

theorem notesText_reportNotes (logged : Record → Text) (settings : Settings)
    (diagnostics : List Diagnostic) :
    notesText logged (settings.reportNotes diagnostics) =
      settings.report?.elim [] (ReportForm.text · diagnostics) := by
  rw [Settings.reportNotes]
  cases settings.report? with
  | none => rfl
  | some form => exact List.append_nil _

include hsilent

/-- No record shows without a log. -/
theorem notesText_map_record {α : Type} (record : α → Record) (items : List α) :
    notesText logged (items.map fun item => .record (record item)) = [] := by
  rw [notesText, List.flatMap_map]
  exact List.flatMap_eq_nil_iff.mpr fun item _ => hsilent (record item)

theorem notesText_produce (settings : Settings) (source : Text) :
    notesText logged (settings.produce source).1 =
      if settings.canonicalOnly then []
      else
        match settings.options with
        | .error _ => []
        | .ok options =>
          match render options source with
          | .error _ => []
          | .ok compiled => settings.report?.elim [] (ReportForm.text · compiled.diagnostics) := by
  rw [Settings.produce]
  split
  case isTrue =>
    exact notesText_map_record hsilent id
      [.ofIndentation (significantLines source), .ofEvent (canonicalizeEvent source)]
  case isFalse =>
    cases settings.options with
    | error failure => rfl
    | ok options =>
        simp only [value_renderLogged]
        cases render options source with
        | error cause => exact notesText_map_record hsilent _ _
        | ok compiled =>
            simp only [notesText_append, notesText_map_record hsilent, notesText_reportNotes,
              List.nil_append]

end Notes

namespace System

variable {State : Type} {system : System State} {settings : Settings} {state : State}

/-- The system with these bytes on standard input. -/
def withInput (system : System State) (bytes : Bytes) : System State :=
  { system with input := .ok bytes }

theorem run_of_convert {arguments : List Text}
    (h : system.command arguments = .ok (.convert settings)) :
    system.run state arguments = system.convert settings state := by
  rw [run, h]

theorem finish_congr {notes notes' : List Note} (writing : Writing State Failure)
    (h : notesText system.logged notes' = notesText system.logged notes) :
    system.finish notes' writing = system.finish notes writing := by
  simp only [finish, h]

section StandardInput

variable {input : Bytes} {source : Text} (hstdin : system.input = .ok input)
  (hinput : settings.input? = none) (hdecode : settings.charset.decode input = .ok source)

include hstdin hinput hdecode

/-- A conversion of standard input in terms of the source that it holds. -/
theorem convert_of_decode :
    system.convert settings state =
      match (settings.produce source).2.bind settings.encodeOutput with
      | .error failure => system.finish (settings.produce source).1 { state, refusal? := failure }
      | .ok bytes =>
        system.finish (settings.produce source).1 (system.writeOutput settings state bytes) := by
  have hread : system.readInput settings state = .ok input := by
    rw [readInput, hinput, hstdin]
    rfl
  cases hresult : (settings.produce source).2.bind settings.encodeOutput with
  | error failure => simp only [convert, hread, Settings.convert, hdecode, hresult]
  | ok bytes => simp only [convert, hread, Settings.convert, hdecode, hresult]

theorem convert_of_produce_error {failure : Failure}
    (hproduce : (settings.produce source).2 = .error failure) :
    system.convert settings state =
      system.finish (settings.produce source).1 { state, refusal? := failure } := by
  rw [convert_of_decode hstdin hinput hdecode, hproduce]
  rfl

theorem convert_of_produce_ok (houtput : settings.output? = none) {output : Text} {bytes : Bytes}
    (hproduce : (settings.produce source).2 = .ok output)
    (hencode : settings.charset.encode output = .ok bytes) (hprint : system.print bytes = none) :
    system.convert settings state =
      ⟨0, bytes, Utf8.encode (notesText system.logged (settings.produce source).1), state⟩ := by
  have hresult : (settings.produce source).2.bind settings.encodeOutput = .ok bytes := by
    rw [hproduce, Except.bind, Settings.encodeOutput, hencode]
    rfl
  have hwrite : system.writeOutput settings state bytes = { state, output := bytes } := by
    simp only [writeOutput, houtput, printed, hprint]
    rfl
  rw [convert_of_decode hstdin hinput hdecode, hresult]
  simp only [hwrite, finish, List.append_nil]

end StandardInput

end System

end IndentMarkup.CommandLine
