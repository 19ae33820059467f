import IndentMarkup.CommandLine.Conversion
import IndentMarkup.Proofs.Charset
import IndentMarkup.Proofs.Compile
import IndentMarkup.Proofs.Html.Characters

/-!
The output of a conversion. Main statement: it holds characters of the source
and ASCII characters only, so the charset of the source can encode it.
-/

namespace IndentMarkup.CommandLine

/-- What every output may hold: the characters of its source, and ASCII. -/
def InSourceOrAscii (source : Text) (c : Char) : Prop := c ∈ source ∨ c.toNat < 0x80

section Ascii

variable {source : Text}

theorem inSourceOrAscii_of_ascii {ascii : Text} (h : ascii.all fun c => c.toNat < 0x80) :
    ∀ c ∈ ascii, InSourceOrAscii source c := by
  intro c hc
  exact .inr (by simpa using List.all_eq_true.mp h c hc)

theorem inSourceOrAscii_of_mem_canonicalize :
    ∀ c ∈ canonicalize source, InSourceOrAscii source c := by
  intro c hc
  rcases mem_of_mem_canonicalize hc with rfl | rfl | hmem
  · exact .inr (by decide)
  · exact .inr (by decide)
  · exact .inl hmem

end Ascii

namespace Settings

variable {settings : Settings} {source output : Text}

theorem inSourceOrAscii_of_mem_canonicalOutput :
    ∀ c ∈ canonicalOutput source, InSourceOrAscii source c := by
  rw [canonicalOutput]
  split
  · simp
  · rw [List.forall_mem_append]
    exact ⟨inSourceOrAscii_of_mem_canonicalize, inSourceOrAscii_of_ascii rfl⟩

/-- What the settings make of a level, if memory can hold it. -/
theorem options_of_le (hwidth : ∀ width ∈ settings.indent?, width ≤ Text.maxLength) :
    settings.options = .ok {
      strict := settings.strict
      indent := match settings.indent? with
        | none => .tab
        | some width => { text := List.replicate width ' ' } } := by
  rw [options, indent]
  cases hindent : settings.indent? with
  | none => rfl
  | some width =>
      simp only [if_pos (hwidth width hindent)]
      rfl

theorem options_eq_error {failure : Failure} (h : settings.options = .error failure) :
    failure = .tooWide ∧ ∃ width ∈ settings.indent?, Text.maxLength < width := by
  by_cases hwidth : ∀ width ∈ settings.indent?, width ≤ Text.maxLength
  · rw [options_of_le hwidth] at h
    cases h
  · simp only [not_forall, Nat.not_le] at hwidth
    obtain ⟨width, hindent, hlt⟩ := hwidth
    rw [options, indent, Option.mem_def.mp hindent] at h
    simp only [if_neg (Nat.not_le.mpr hlt)] at h
    exact ⟨(Except.error.inj h).symm, width, hindent, hlt⟩

theorem le_of_options_eq_ok {options : Options} (h : settings.options = .ok options) :
    ∀ width ∈ settings.indent?, width ≤ Text.maxLength := by
  intro width hindent
  by_contra hlt
  rw [Settings.options, indent, Option.mem_def.mp hindent] at h
  simp only [if_neg hlt] at h
  cases h

theorem inSourceOrAscii_of_mem_indent {options : Options} (h : settings.options = .ok options) :
    ∀ c ∈ options.indent.text, InSourceOrAscii source c := by
  rw [options_of_le (le_of_options_eq_ok h)] at h
  rw [← Except.ok.inj h]
  cases settings.indent? with
  | none => exact inSourceOrAscii_of_ascii rfl
  | some width =>
      intro c hc
      rw [List.eq_of_mem_replicate hc]
      exact .inr (by decide)

theorem inSourceOrAscii_of_mem_html {options : Options} {compiled : Compiled}
    (hoptions : settings.options = .ok options) (h : render options source = .ok compiled) :
    ∀ c ∈ compiled.html, InSourceOrAscii source c := by
  have hsynthesized : ∀ c ∈ Selector.synthesized, InSourceOrAscii source c :=
    inSourceOrAscii_of_ascii rfl
  have hmarks : ∀ c ∈ Html.marks, InSourceOrAscii source c := inSourceOrAscii_of_ascii rfl
  have hlines := Document.within_of_mem_lines hsynthesized inSourceOrAscii_of_mem_canonicalize
  have hhtml : compiled.html =
      Html.write options.indent (Document.parse (canonicalize source)).lines := by
    rw [eq_of_compile_eq_ok h]
  rw [hhtml]
  exact Html.forall_mem_write hmarks
    (Html.forall_mem_unit (inSourceOrAscii_of_mem_indent hoptions)) hlines

theorem output_produce (settings : Settings) (source : Text) :
    (settings.produce source).2 =
      if settings.canonicalOnly then .ok (canonicalOutput source)
      else settings.options.bind fun options =>
        ((render options source).map (·.html)).mapError .uncompilable := by
  rw [produce]
  split
  case isTrue => rfl
  case isFalse =>
    cases settings.options with
    | error failure => rfl
    | ok options =>
        simp only [value_renderLogged, Except.bind]
        cases render options source <;> rfl

/-- The text that a source is converted to. -/
def Produces (settings : Settings) (source output : Text) : Prop :=
  if settings.canonicalOnly then output = canonicalOutput source
  else ∃ options compiled, settings.options = .ok options ∧
    render options source = .ok compiled ∧ output = compiled.html

theorem produce_eq_ok_iff :
    (settings.produce source).2 = .ok output ↔ settings.Produces source output := by
  rw [output_produce, Produces]
  split
  · rw [Except.ok.injEq, eq_comm]
  · cases settings.options with
    | error failure => simp [Except.bind]
    | ok options =>
        simp only [Except.bind, mapError_eq_ok_iff, Except.ok.injEq, exists_and_left,
          exists_eq_left']
        cases render options source <;> simp [Except.map, eq_comm]

theorem inSourceOrAscii_of_produce (h : (settings.produce source).2 = .ok output) :
    ∀ c ∈ output, InSourceOrAscii source c := by
  rw [produce_eq_ok_iff, Produces] at h
  split at h
  case isTrue =>
    rw [h]
    exact inSourceOrAscii_of_mem_canonicalOutput
  case isFalse =>
    obtain ⟨options, compiled, hoptions, hcompiled, rfl⟩ := h
    exact inSourceOrAscii_of_mem_html hoptions hcompiled

/-- Between decoding and encoding only the indent and the compiler can fail. -/
theorem produce_eq_error {failure : Failure} (h : (settings.produce source).2 = .error failure) :
    settings.canonicalOnly = false ∧
      (failure = .tooWide ∧ settings.options = .error .tooWide ∨
        ∃ options cause, settings.options = .ok options ∧ render options source = .error cause ∧
          failure = .uncompilable cause) := by
  rw [output_produce] at h
  split at h
  case isTrue => cases h
  case isFalse hform =>
    refine ⟨eq_false_of_ne_true hform, ?_⟩
    cases hoptions : settings.options with
    | error refused =>
        rw [hoptions] at h
        obtain rfl := Except.error.inj h
        obtain ⟨rfl, -⟩ := options_eq_error hoptions
        exact .inl ⟨rfl, rfl⟩
    | ok options =>
        rw [hoptions] at h
        cases hrender : render options source with
        | ok compiled =>
            rw [Except.bind, hrender] at h
            cases h
        | error cause =>
            rw [Except.bind, hrender] at h
            exact .inr ⟨options, cause, rfl, hrender, (Except.error.inj h).symm⟩

section Decoded

variable {input : Bytes} (hdecode : settings.charset.decode input = .ok source)

include hdecode

theorem result_convert_of_decode :
    (settings.convert input).result = (settings.produce source).2.bind settings.encodeOutput := by
  rw [convert, hdecode]

theorem exists_encode_eq_ok (hproduce : (settings.produce source).2 = .ok output) :
    ∃ bytes, settings.charset.encode output = .ok bytes ∧
      (settings.convert input).result = .ok bytes := by
  have hhas : ∀ c ∈ output, settings.charset.Has c := by
    intro c hc
    rcases inSourceOrAscii_of_produce hproduce c hc with hmem | hascii
    · exact Charset.has_of_mem_decode hdecode c hmem
    · exact settings.charset.has_of_lt hascii
  obtain ⟨bytes, hbytes⟩ := (settings.charset.exists_encode_eq_ok_iff output).mpr hhas
  refine ⟨bytes, hbytes, ?_⟩
  rw [result_convert_of_decode hdecode, hproduce, Except.bind, encodeOutput, hbytes]
  rfl

theorem result_convert_ne_unencodable (charset : Charset) (cause : EncodeError) :
    (settings.convert input).result ≠ .error (.unencodable charset cause) := by
  cases hproduce : (settings.produce source).2 with
  | error failure =>
      rw [result_convert_of_decode hdecode, hproduce]
      obtain ⟨-, ⟨rfl, -⟩ | ⟨_, cause, -, -, rfl⟩⟩ := produce_eq_error hproduce
      · rintro ⟨⟩
      · rintro ⟨⟩
  | ok output =>
      obtain ⟨bytes, -, hresult⟩ := exists_encode_eq_ok hdecode hproduce
      rw [hresult]
      rintro ⟨⟩

/-- The output for a decoded source holds characters of that source and ASCII
characters only, so it can be encoded, and no conversion fails because its
output cannot be. -/
theorem encode_produced :
    (∀ output, (settings.produce source).2 = .ok output →
        (∀ c ∈ output, c ∈ source ∨ c.toNat < 0x80) ∧
          ∃ bytes, settings.charset.encode output = .ok bytes ∧
            (settings.convert input).result = .ok bytes) ∧
      ∀ charset cause, (settings.convert input).result ≠ .error (.unencodable charset cause) := by
  refine ⟨fun output hproduce => ?_, result_convert_ne_unencodable hdecode⟩
  exact ⟨inSourceOrAscii_of_produce hproduce, exists_encode_eq_ok hdecode hproduce⟩

end Decoded

/-- Letters outside ASCII in a class, in an attribute, in a body behind a space
that does not break, and in a text line. -/
def westernSource : Text := "p.é \u00a0ü\n\ta(t:ÿ b)\n\tø".toList

def westernHtml : Text := "<p class=\"é\">ü\n  <a t=\"ÿ\"></a>\n  ø\n</p>\n".toList

def westernSettings : Settings := { charset? := some .latin1, indent? := some 2 }

theorem encode_produced_westernSource :
    westernSettings.charset.decode (Charset.bytesOfText westernSource) = .ok westernSource ∧
      (westernSettings.produce westernSource).2 = .ok westernHtml ∧
      (∀ c ∈ westernHtml, c ∈ westernSource ∨ c.toNat < 0x80) ∧
      ∃ bytes, westernSettings.charset.encode westernHtml = .ok bytes ∧
        (westernSettings.convert (Charset.bytesOfText westernSource)).result = .ok bytes := by
  have hdecode : westernSettings.charset.decode (Charset.bytesOfText westernSource) =
      .ok westernSource := by decide +kernel
  have hproduce : (westernSettings.produce westernSource).2 = .ok westernHtml := by
    decide +kernel
  exact ⟨hdecode, hproduce, (encode_produced hdecode).1 westernHtml hproduce⟩

end Settings

end IndentMarkup.CommandLine
