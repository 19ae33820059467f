import IndentMarkup.CommandLine.Run
import IndentMarkup.Embedding
import IndentMarkup.Proofs.Charset.Inverse
import IndentMarkup.Proofs.CommandLine.Arguments
import IndentMarkup.Proofs.CommandLine.Run
import IndentMarkup.Proofs.Json.Records

/-!
The command line and the rendering for host pages agree: the same HTML, the
same diagnostics, which the command line prints as a JSON text, and the same
refusals.
-/

namespace IndentMarkup

/-- A finding as a JSON object. -/
def Embedding.Finding.value (finding : Finding) : Json.Value :=
  .object [("code".toList, .string finding.code), ("severity".toList, .string finding.severity),
    ("message".toList, .string finding.message)]

theorem read?_recordsText_fields (diagnostics : List Diagnostic) :
    Json.read? (Json.recordsText (diagnostics.map Diagnostic.fields)) =
      some (.array ((diagnostics.map Embedding.Finding.ofDiagnostic).map
        Embedding.Finding.value)) := by
  rw [Json.read?_recordsText, List.map_map, List.map_map]
  rfl

namespace CommandLine

/-- The options of a host page for as many spaces per level, or for a tab. -/
def hostOptions (strict : Bool) (indent? : Option Nat) : Options where
  strict
  indent := match indent? with
    | none => .tab
    | some width => { text := List.replicate width ' ' }

/-- The settings of the command line for them, with a JSON report. -/
def hostSettings (strict : Bool) (indent? : Option Nat) : Settings where
  charset? := some .utf8
  strict
  indent?
  report? := some .json

theorem options_hostSettings (strict : Bool) {indent? : Option Nat}
    (hwidth : ∀ width ∈ indent?, width ≤ Text.maxLength) :
    (hostSettings strict indent?).options = .ok (hostOptions strict indent?) := by
  rw [Settings.options_of_le hwidth]
  cases indent? with
  | none => rfl
  | some width => rfl

/-- What a run gives for a page, and for the message of a refusal. -/
def Ending.Matches {State : Type} (ending : Ending State) (state : State) :
    Except Text Embedding.Page → Prop
  | .ok page =>
    ending.exit = 0 ∧ ending.output = Utf8.encode page.html ∧ ending.state = state ∧
      ∃ document, ending.messages = Utf8.encode (document ++ ['\n']) ∧
        Json.read? document =
          some (.array (page.diagnostics.map Embedding.Finding.value))
  | .error message =>
    ending = ⟨1, [],
      Utf8.encode ("error: failed to compile template: ".toList ++ message ++ ['\n']), state⟩

section Host

variable {State : Type} {system : System State} (hsilent : ∀ record, system.logged record = [])
  (hprint : ∀ bytes, system.print bytes = none)

include hsilent hprint

theorem matches_convert_hostSettings (strict : Bool) {indent? : Option Nat}
    (hwidth : ∀ width ∈ indent?, width ≤ Text.maxLength) (text : Text) (state : State) :
    ((system.withInput (Utf8.encode text)).convert (hostSettings strict indent?) state).Matches
      state (Embedding.render (hostOptions strict indent?) text) := by
  have hinput : (hostSettings strict indent?).input? = none := rfl
  have hdecode : (hostSettings strict indent?).charset.decode (Utf8.encode text) = .ok text :=
    (Charset.decode_eq_ok_iff_encode_eq_ok .utf8 _ _).mpr rfl
  have hproduce := Settings.output_produce (hostSettings strict indent?) text
  have hnotes := notesText_produce hsilent (hostSettings strict indent?) text
  rw [options_hostSettings strict hwidth] at hproduce hnotes
  rw [Embedding.render]
  cases hhost : render (hostOptions strict indent?) text with
  | error cause =>
      simp only [Except.bind, hhost] at hproduce hnotes
      have hconvert : (system.withInput (Utf8.encode text)).convert (hostSettings strict indent?)
          state = system.finish ((hostSettings strict indent?).produce text).1
            { state, refusal? := some (.uncompilable cause) } :=
        System.convert_of_produce_error rfl hinput hdecode hproduce
      rw [hconvert, System.finish, hnotes]
      rfl
  | ok compiled =>
      simp only [Except.bind, hhost] at hproduce hnotes
      have hconvert : (system.withInput (Utf8.encode text)).convert (hostSettings strict indent?)
          state = ⟨0, Utf8.encode compiled.html,
            Utf8.encode (notesText system.logged ((hostSettings strict indent?).produce text).1),
            state⟩ :=
        System.convert_of_produce_ok rfl hinput hdecode rfl hproduce rfl (hprint _)
      rw [hconvert, hnotes]
      exact ⟨rfl, rfl, rfl, _, rfl, read?_recordsText_fields compiled.diagnostics⟩

/-- Every command line that asks for UTF-8 and for a JSON report agrees with
the rendering for a host page, for every text that a level can be indented
with, as long as no log is kept and standard output takes everything. -/
theorem run_matches_render (strict : Bool) {indent? : Option Nat}
    (hwidth : ∀ width ∈ indent?, width ≤ Text.maxLength) (text : Text) (state : State)
    {arguments : List Text}
    (harguments : system.command arguments = .ok (.convert (hostSettings strict indent?))) :
    ((system.withInput (Utf8.encode text)).run state arguments).Matches state
      (Embedding.render (hostOptions strict indent?) text) := by
  have hrun : (system.withInput (Utf8.encode text)).run state arguments =
      (system.withInput (Utf8.encode text)).convert (hostSettings strict indent?) state :=
    System.run_of_convert harguments
  rw [hrun]
  exact matches_convert_hostSettings hsilent hprint strict hwidth text state

end Host

/-- A quote, a backslash, a control and another script in a line that stands
two levels too deep and never closes its attribute list. -/
def unclosedLabels : Text := "ul\n\t\t\tli(\"\\ \x01日".toList

def unclosedFindings : List Embedding.Finding :=
  [⟨"W_DEPTH_JUMP".toList,
      "indentation jumps from level 0 to level 3 at `li(\"\\ \x01日`".toList, "warning".toList⟩,
    ⟨"W_ATTR_UNCLOSED".toList,
      "attribute list is never closed in `li(\"\\ \x01日`".toList, "warning".toList⟩]

theorem run_matches_render_unclosedLabels :
    ∃ arguments,
      Command.ofArguments arguments = .ok (.convert (hostSettings false (some 1))) ∧
        Ending.Matches (run { arguments, input := Utf8.encode unclosedLabels }) {}
          (.ok ⟨"<ul>\n   <li></li>\n</ul>\n".toList, unclosedFindings⟩) := by
  have hpage : Embedding.render (hostOptions false (some 1)) unclosedLabels =
      .ok ⟨"<ul>\n   <li></li>\n</ul>\n".toList, unclosedFindings⟩ := by
    decide +kernel
  have hwidth : ∀ width ∈ some 1, width ≤ Text.maxLength := by decide
  have harguments : Command.ofArguments (hostSettings false (some 1)).toArguments =
      .ok (.convert (hostSettings false (some 1))) :=
    Settings.ofArguments_toArguments ⟨nofun, nofun, by decide⟩
  have hcommand : (sandbox none (Utf8.encode unclosedLabels)).command
      (hostSettings false (some 1)).toArguments =
        .ok (.convert (hostSettings false (some 1))) := by
    simp only [sandbox, harguments, Except.mapError]
  have hmatches := run_matches_render (fun _ => rfl) (fun _ => rfl) false hwidth unclosedLabels {}
    hcommand
  rw [hpage] at hmatches
  exact ⟨_, harguments, hmatches⟩

end CommandLine

end IndentMarkup
