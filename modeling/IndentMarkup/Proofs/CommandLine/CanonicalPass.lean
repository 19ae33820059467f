import IndentMarkup.CommandLine.Run
import IndentMarkup.Proofs.Canonical.FixedPoint
import IndentMarkup.Proofs.Charset.Inverse
import IndentMarkup.Proofs.CommandLine.Run

/-!
Canonical text as a pass of its own, on bytes. A second pass prints what the
first one did, and a conversion cannot tell what the pass prints from the
source that it was made from.
-/

namespace IndentMarkup

section Text

/-- A final line feed adds an empty piece, which holds nothing. -/
theorem significantLines_append_lineFeed (t : Text) :
    significantLines (t ++ ['\n']) = significantLines t := by
  have hpieces : (t ++ ['\n']).pieces = t.pieces ++ [[]] := Text.pieces_append_lineFeed t []
  rw [significantLines, significantLines, hpieces, List.map_append, List.filter_append]
  exact List.append_nil _

theorem canonicalize_append_lineFeed (t : Text) : canonicalize (t ++ ['\n']) = canonicalize t := by
  rw [canonicalize, canonicalize, significantLines_append_lineFeed]

end Text

namespace CommandLine

namespace Settings

theorem canonicalize_canonicalOutput (source : Text) :
    canonicalize (canonicalOutput source) = canonicalize source := by
  rw [canonicalOutput]
  split
  case isTrue hempty => rw [List.isEmpty_iff.mp hempty, canonicalize_nil]
  case isFalse => rw [canonicalize_append_lineFeed, canonicalize_canonicalize]

variable {source source' : Text}

theorem canonicalOutput_congr (h : canonicalize source' = canonicalize source) :
    canonicalOutput source' = canonicalOutput source := by
  rw [canonicalOutput, canonicalOutput, h]

/-- The output and the reports depend on the canonical text alone. Records of
a log do not. -/
theorem output_produce_congr (settings : Settings)
    (h : canonicalize source' = canonicalize source) :
    (settings.produce source').2 = (settings.produce source).2 := by
  have hrender (options : Options) : render options source' = render options source := by
    rw [render, render, h]
  simp only [output_produce, canonicalOutput_congr h, hrender]

theorem notesText_produce_congr {logged : Record → Text} (hsilent : ∀ record, logged record = [])
    (settings : Settings) (h : canonicalize source' = canonicalize source) :
    notesText logged (settings.produce source').1 =
      notesText logged (settings.produce source).1 := by
  have hrender (options : Options) : render options source' = render options source := by
    rw [render, render, h]
  simp only [notesText_produce hsilent, hrender]

/-- The canonical text of a decoded source, encoded again. -/
theorem exists_encode_canonicalOutput {charset : Charset} {input : Bytes}
    (hdecode : charset.decode input = .ok source) :
    ∃ canonical, charset.encode (canonicalOutput source) = .ok canonical ∧
      charset.decode canonical = .ok (canonicalOutput source) := by
  let settings : Settings := { charset? := some charset, canonicalOnly := true }
  have hproduce : (settings.produce source).2 = .ok (canonicalOutput source) := rfl
  have hdecode' : settings.charset.decode input = .ok source := hdecode
  obtain ⟨canonical, hencode, -⟩ := exists_encode_eq_ok hdecode' hproduce
  exact ⟨canonical, hencode, (charset.decode_eq_ok_iff_encode_eq_ok _ _).mpr hencode⟩

end Settings

namespace System

variable {State : Type} {system : System State} {settings : Settings} {source source' : Text}
  {input input' canonical : Bytes} (hsilent : ∀ record, system.logged record = [])
  (hinput : settings.input? = none) (hdecode : settings.charset.decode input = .ok source)

include hsilent hinput hdecode

theorem convert_congr (state : State) (hdecode' : settings.charset.decode input' = .ok source')
    (h : canonicalize source' = canonicalize source) :
    (system.withInput input').convert settings state =
      (system.withInput input).convert settings state := by
  have hnotes (writing : Writing State Failure) :
      system.finish (settings.produce source').1 writing =
        system.finish (settings.produce source).1 writing :=
    finish_congr writing (Settings.notesText_produce_congr hsilent settings h)
  rw [convert_of_decode rfl hinput hdecode', convert_of_decode rfl hinput hdecode,
    settings.output_produce_congr h]
  cases (settings.produce source).2.bind settings.encodeOutput with
  | error failure => exact hnotes { state, refusal? := failure }
  | ok bytes => exact hnotes (system.writeOutput settings state bytes)

theorem convert_canonicalOnly (state : State) (houtput : settings.output? = none)
    (hform : settings.canonicalOnly = true)
    (hencode : settings.charset.encode (Settings.canonicalOutput source) = .ok canonical)
    (hprint : system.print canonical = none) :
    (system.withInput input).convert settings state = ⟨0, canonical, [], state⟩ := by
  have hproduce : (settings.produce source).2 = .ok (Settings.canonicalOutput source) := by
    rw [Settings.output_produce, if_pos hform]
  have hnotes : notesText system.logged (settings.produce source).1 = [] := by
    rw [notesText_produce hsilent, if_pos hform]
  have hconvert : (system.withInput input).convert settings state =
      ⟨0, canonical, Utf8.encode (notesText system.logged (settings.produce source).1), state⟩ :=
    convert_of_produce_ok rfl hinput hdecode houtput hproduce hencode hprint
  rw [hconvert, hnotes, Utf8.encode_nil]

end System

/-- Making canonical text first changes nothing, as long as no log is kept. It
succeeds on all bytes that can be decoded, it prints its own output again, and
then every conversion gives the same exit status, output, messages and files as
for the source. -/
theorem run_of_canonical {charset : Charset} {input : Bytes} {source : Text}
    (hdecode : charset.decode input = .ok source) :
    ∃ canonical, ∀ (State : Type) (system : System State) (state : State),
      (∀ record, system.logged record = []) →
        (∀ arguments settings, system.command arguments = .ok (.convert settings) →
          settings.charset = charset → settings.input? = none → settings.output? = none →
          settings.canonicalOnly = true → system.print canonical = none →
            (system.withInput input).run state arguments = ⟨0, canonical, [], state⟩ ∧
              (system.withInput canonical).run state arguments = ⟨0, canonical, [], state⟩) ∧
        ∀ arguments settings, system.command arguments = .ok (.convert settings) →
          settings.charset = charset → settings.input? = none →
            (system.withInput canonical).run state arguments =
              (system.withInput input).run state arguments := by
  obtain ⟨canonical, hencode, hdecode'⟩ := Settings.exists_encode_canonicalOutput hdecode
  have hsame := Settings.canonicalize_canonicalOutput source
  refine ⟨canonical, fun State system state hsilent => ?_⟩
  have hconvert {arguments : List Text} {settings : Settings} (bytes : Bytes)
      (harguments : system.command arguments = .ok (.convert settings)) :
      (system.withInput bytes).run state arguments =
        (system.withInput bytes).convert settings state := System.run_of_convert harguments
  constructor
  · rintro arguments settings harguments rfl hinput houtput hform hprint
    have hencode' := hencode
    rw [← Settings.canonicalOutput_congr hsame] at hencode'
    rw [hconvert input harguments, hconvert canonical harguments]
    exact ⟨System.convert_canonicalOnly hsilent hinput hdecode state houtput hform hencode hprint,
      System.convert_canonicalOnly hsilent hinput hdecode' state houtput hform hencode' hprint⟩
  · rintro arguments settings harguments rfl hinput
    rw [hconvert input harguments, hconvert canonical harguments]
    exact System.convert_congr hsilent hinput hdecode state hdecode' hsame

/-- A line of white space, a line two levels too deep, and stacked carriage
returns. -/
def spacedList : Text := "\u00a0\n  ul\r\n      li é\r\r\n".toList

theorem run_of_canonical_spacedList :
    let canonicalOnly := ["--encoding", "utf-8", "--normalize-only"].map String.toList
    let indented := ["--diagnostics", "json", "--encoding=utf-8", "--indent=2"].map String.toList
    let system := sandbox none []
    ∃ canonical,
      ((system.withInput (Utf8.encode spacedList)).run {} canonicalOnly =
          ⟨0, canonical, [], {}⟩ ∧
        (system.withInput canonical).run {} canonicalOnly = ⟨0, canonical, [], {}⟩) ∧
      (system.withInput canonical).run {} indented =
        (system.withInput (Utf8.encode spacedList)).run {} indented := by
  intro canonicalOnly indented system
  have hdecode : Charset.decode .utf8 (Utf8.encode spacedList) = .ok spacedList := by
    decide +kernel
  obtain ⟨canonical, hcanonical⟩ := run_of_canonical hdecode
  obtain ⟨hpass, hconvert⟩ := hcanonical Directory system {} fun _ => rfl
  exact ⟨canonical,
    hpass canonicalOnly { charset? := some .utf8, canonicalOnly := true } rfl rfl rfl rfl rfl rfl,
    hconvert indented { charset? := some .utf8, indent? := some 2, report? := some .json }
      rfl rfl rfl⟩

end CommandLine

end IndentMarkup
