import IndentMarkup.Compile
import IndentMarkup.Proofs.Depth
import IndentMarkup.Proofs.InlineBlock

/-!
What compiling returns. A raw text is refused as empty exactly if it holds
white space only, whatever the options are; otherwise strict depth refuses it
for the first depth jump that would be reported without it.
-/

namespace IndentMarkup

/-- Nothing but the outline of a text is compiled. -/
theorem compile_of_outline_eq (options : Options) {canonical other : Text}
    (h : outline canonical = outline other) :
    compile options canonical = compile options other := by
  rw [compile, compile, Document.parse, Document.parse, h]

section Options

variable {canonical : Text} (indent : Html.Indent)

theorem eq_of_compile_eq_ok {options : Options} {compiled : Compiled}
    (h : compile options canonical = .ok compiled) :
    compiled =
      ⟨Html.write options.indent (Document.parse canonical).lines,
        (Document.parse canonical).diagnostics⟩ := by
  simp only [compile] at h
  split at h
  case h_1 => cases h
  case h_2 => exact (Except.ok.inj h).symm

theorem compile_of_lines_eq_nil (options : Options) (h : (Document.parse canonical).lines = []) :
    compile options canonical = .error .emptyInput := by
  simp [compile, refusal?, h]

theorem compile_lenient (h : (Document.parse canonical).lines ≠ []) :
    compile ⟨false, indent⟩ canonical =
      .ok ⟨Html.write indent (Document.parse canonical).lines,
        (Document.parse canonical).diagnostics⟩ := by
  simp [compile, refusal?, h]

/-- Strict depth adds one check to a compilation that would succeed. -/
theorem compile_strict {compiled : Compiled}
    (h : compile ⟨false, indent⟩ canonical = .ok compiled) :
    compile ⟨true, indent⟩ canonical =
      match refuseJumps (Document.parse canonical).lines with
      | .error jump => .error (.depthJump jump)
      | .ok () => .ok compiled := by
  have hlines : (Document.parse canonical).lines ≠ [] := by
    intro hempty
    rw [compile_of_lines_eq_nil _ hempty] at h
    cases h
  rw [eq_of_compile_eq_ok h]
  simp only [compile, refusal?, List.isEmpty_eq_false_iff.mpr hlines]
  cases refuseJumps (Document.parse canonical).lines with
  | error jump => rfl
  | ok => rfl

end Options

/-- The warning about a jump and the refusal for it read the same. -/
theorem CompileError.message_depthJump (jump : DepthJump) :
    (CompileError.depthJump jump).message = (Diagnostic.depthJump jump).message :=
  rfl

section Empty

theorem separateBlocks_eq_nil_iff (lines : List Line) : separateBlocks lines = [] ↔ lines = [] := by
  cases lines with
  | nil => simp
  | cons line lines => simp [line.separate_eq_cons]

theorem lines_parse_canonicalize_eq_nil_iff (raw : Text) :
    (Document.parse (canonicalize raw)).lines = [] ↔ ∀ c ∈ raw, Text.isBlank c = true := by
  rw [Document.parse, Document.ofLines, List.map_eq_nil_iff, separateBlocks_eq_nil_iff,
    outline_eq_nil_iff, nonblank_canonicalize, Text.nonblank_eq_nil_iff]

/-- A text of white space is refused as empty under all options. -/
theorem render_of_blank (options : Options) {raw : Text} (h : ∀ c ∈ raw, Text.isBlank c = true) :
    render options raw = .error .emptyInput :=
  compile_of_lines_eq_nil options ((lines_parse_canonicalize_eq_nil_iff raw).mpr h)

/-- Without strict depth nothing else is refused. -/
theorem exists_render_eq_ok (indent : Html.Indent) {raw : Text}
    (h : ¬ ∀ c ∈ raw, Text.isBlank c = true) :
    ∃ compiled, render ⟨false, indent⟩ raw = .ok compiled :=
  ⟨_, compile_lenient indent (mt (lines_parse_canonicalize_eq_nil_iff raw).mp h)⟩

theorem render_eq_error_iff (indent : Html.Indent) (raw : Text) :
    (∃ error, render ⟨false, indent⟩ raw = .error error) ↔ ∀ c ∈ raw, Text.isBlank c = true := by
  refine ⟨?_, fun hblank => ⟨_, render_of_blank _ hblank⟩⟩
  rintro ⟨error, herror⟩
  by_contra hcontent
  obtain ⟨compiled, hcompiled⟩ := exists_render_eq_ok indent hcontent
  rw [hcompiled] at herror
  cases herror

end Empty

section Strict

theorem render_strict {indent : Html.Indent} {raw : Text} {compiled : Compiled}
    (h : render ⟨false, indent⟩ raw = .ok compiled) :
    render ⟨true, indent⟩ raw =
      match compiled.diagnostics.find? Diagnostic.isJump with
      | some (.depthJump jump) => .error (.depthJump jump)
      | _ => .ok compiled := by
  have hdiagnostics : compiled.diagnostics = (Document.parse (canonicalize raw)).diagnostics := by
    rw [eq_of_compile_eq_ok h]
  rw [render, compile_strict indent h, refuseJumps_lines_parse, ← hdiagnostics]
  cases compiled.diagnostics.find? Diagnostic.isJump with
  | none => rfl
  | some diagnostic => cases diagnostic <;> rfl

/-- Both modes refuse white space as empty, and without strict depth nothing
else is refused. Any other text compiles to the same with strict depth, unless
a depth jump is reported: then the first one reported is what it is refused for. -/
theorem render_strict_of_lenient (indent : Html.Indent) (raw : Text) :
    ((∃ error, render ⟨false, indent⟩ raw = .error error) ↔
        ∀ c ∈ raw, Text.isBlank c = true) ∧
      ((∀ c ∈ raw, Text.isBlank c = true) →
        ∀ strict, render ⟨strict, indent⟩ raw = .error .emptyInput) ∧
      ∀ compiled, render ⟨false, indent⟩ raw = .ok compiled →
        match compiled.diagnostics.find? (·.code = "W_DEPTH_JUMP".toList) with
        | none => render ⟨true, indent⟩ raw = .ok compiled
        | some first => ∃ jump, render ⟨true, indent⟩ raw = .error (.depthJump jump) ∧
            (CompileError.depthJump jump).message = first.message := by
  refine ⟨render_eq_error_iff indent raw, fun hblank strict => render_of_blank _ hblank, ?_⟩
  intro compiled hcompiled
  have hstrict := render_strict hcompiled
  rw [Diagnostic.decide_code_eq]
  split
  case h_1 hnone => rwa [hnone] at hstrict
  case h_2 first hfirst =>
    have hjump := List.find?_some hfirst
    cases first with
    | depthJump jump =>
        rw [hfirst] at hstrict
        exact ⟨jump, hstrict, CompileError.message_depthJump jump⟩
    | unclosedGroup content => cases hjump
    | unresolvedAttribute word content => cases hjump

/-- A paragraph two levels below the element before it, and another one. -/
def deepParagraphs : Text := "div\n\t\tp deep\n\t\t\t\tp deeper".toList

theorem render_strict_of_lenient_deepParagraphs :
    ∃ compiled, render {} deepParagraphs = .ok compiled ∧ ∃ jump,
      render { strict := true } deepParagraphs = .error (.depthJump jump) ∧
        (CompileError.depthJump jump).message =
          "indentation jumps from level 0 to level 2 at `p deep`".toList := by
  obtain ⟨compiled, hcompiled⟩ : ∃ compiled, render {} deepParagraphs = .ok compiled := ⟨_, rfl⟩
  have hfirst : compiled.diagnostics.find? (·.code = "W_DEPTH_JUMP".toList) =
      some (.depthJump ⟨0, 2, "p deep".toList⟩) := by
    rw [eq_of_compile_eq_ok hcompiled]
    decide +kernel
  have hstrict := (render_strict_of_lenient .tab deepParagraphs).2.2 compiled hcompiled
  rw [hfirst] at hstrict
  obtain ⟨jump, hrefused, hmessage⟩ := hstrict
  exact ⟨compiled, hcompiled, jump, hrefused, hmessage.trans (by decide +kernel)⟩

end Strict

end IndentMarkup
