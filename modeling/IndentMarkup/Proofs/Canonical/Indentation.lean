import IndentMarkup.Proofs.Canonical.Levels
import IndentMarkup.Proofs.Compile

/-!
The first indented line of a text says how levels are counted in all of its
lines. If it starts with a space, its leading spaces are the unit; if it
starts with a tab, or no line is indented, a level is a tab. Main statement:
the outline of the canonical text has the levels that are read off the raw
lines in this way, and a text without a unit compiles as it stands.
-/

namespace IndentMarkup

open Text

section First

variable {lines : List Text} {first : Text} (hfirst : lines.find? isIndented = some first)
  (hspace : first.head? = some ' ')

include hfirst hspace

theorem Indentation.ofLines_eq_spaces_of_find? : ofLines lines = .spaces :=
  (ofLines_eq_spaces_iff lines).mpr ⟨first, hfirst, hspace⟩

theorem unitWidth_eq_of_find? : unitWidth lines = countLeading ' ' first := by
  obtain ⟨-, before, after, rfl, hbefore⟩ := List.find?_eq_some_iff_append.mp hfirst
  exact unitWidth_append_cons after (by simpa using hbefore) hspace

end First

section Outline

variable {raw : Text}

theorem outline_canonicalize_of_spaces {first : Text}
    (hfirst : (significantLines raw).find? isIndented = some first)
    (hspace : first.head? = some ' ') :
    outline (canonicalize raw) = (significantLines raw).map fun line =>
      { level := countLeading ' ' line / countLeading ' ' first +
          countLeading '\t' (line.dropWhile (· == ' ')),
        content := trim line } := by
  rw [outline_canonicalize, linesOf, Indentation.ofLines_eq_spaces_of_find? hfirst hspace,
    unitWidth_eq_of_find? hfirst hspace]
  rfl

/-- Lines that are not indented anew stand in the canonical text as they are. -/
theorem outline_canonicalize_of_tabs (h : Indentation.ofLines (significantLines raw) = .tabs) :
    outline (canonicalize raw) = outline raw := by
  rw [outline_canonicalize, linesOf, h, outline_eq_map_significantLines]
  rfl

end Outline

/-- The lines of a canonical text are the significant lines of the raw text,
trimmed. If the first indented one starts with a space, the levels are counted
in units of its leading spaces, of which there is at least one, and tabs behind
a line's spaces count as well. Otherwise a level is a leading tab, and the raw
text has the same outline and compiles to what it renders to. -/
theorem outline_canonicalize_eq_map (raw : Text) :
    (∀ first, (significantLines raw).find? isIndented = some first → first.head? = some ' ' →
        1 ≤ countLeading ' ' first ∧ unitWidth (significantLines raw) = countLeading ' ' first ∧
          outline (canonicalize raw) = (significantLines raw).map fun line =>
            { level := countLeading ' ' line / countLeading ' ' first +
                countLeading '\t' (line.dropWhile (· == ' ')),
              content := trim line }) ∧
      (Indentation.ofLines (significantLines raw) = .spaces →
        unitWidth (significantLines raw) ≠ 0) ∧
      ((∀ first ∈ (significantLines raw).find? isIndented, first.head? ≠ some ' ') →
        outline (canonicalize raw) =
            (significantLines raw).map (fun line =>
              { level := countLeading '\t' line, content := trim line }) ∧
          outline (canonicalize raw) = outline raw ∧
          ∀ options, render options raw = compile options raw) := by
  refine ⟨fun first hfirst hspace => ?_, fun hspaces => (unitWidth_pos hspaces).ne', fun h => ?_⟩
  · exact ⟨countLeading_pos hspace, unitWidth_eq_of_find? hfirst hspace,
      outline_canonicalize_of_spaces hfirst hspace⟩
  · have htabs : Indentation.ofLines (significantLines raw) = .tabs := by
      rw [Indentation.ofLines_eq_tabs_iff]
      intro first hfirst
      exact (head?_eq_of_isIndented (List.find?_some hfirst)).resolve_left (h first hfirst)
    have houtline := outline_canonicalize_of_tabs htabs
    refine ⟨houtline.trans (outline_eq_map_significantLines raw), houtline, fun options => ?_⟩
    exact compile_of_outline_eq options houtline

/-- Indented with two spaces, with a space left over before a tab, a tab alone
and white space that is no indentation. -/
def mixedMargins : Text := " \t\r\n\u00a0ul\r\n  li\n     \tb x \r\r\n\ti\n".toList

/-- Indented with a tab first and then with spaces. -/
def tabbedMargins : Text := "p\r\n\tb \n    i\r".toList

theorem outline_canonicalize_eq_map_mixedMargins :
    outline (canonicalize mixedMargins) =
        [{ level := 0, content := "ul".toList }, { level := 1, content := "li".toList },
          { level := 3, content := "b x".toList }, { level := 1, content := "i".toList }] ∧
      unitWidth (significantLines mixedMargins) = 2 ∧
      unitWidth (significantLines mixedMargins) ≠ 0 ∧
      outline tabbedMargins =
        [{ level := 0, content := "p".toList }, { level := 1, content := "b".toList },
          { level := 0, content := "i".toList }] ∧
      render { strict := true } tabbedMargins = compile { strict := true } tabbedMargins := by
  have hfirst : (significantLines mixedMargins).find? isIndented = some "  li".toList := by
    decide +kernel
  have hspaces : Indentation.ofLines (significantLines mixedMargins) = .spaces := by
    decide +kernel
  have htab : ∀ first ∈ (significantLines tabbedMargins).find? isIndented,
      first.head? ≠ some ' ' := by decide +kernel
  obtain ⟨hunit, hpositive, -⟩ := outline_canonicalize_eq_map mixedMargins
  obtain ⟨-, hwidth, hmixed⟩ := hunit _ hfirst rfl
  obtain ⟨hlevels, houtline, hcompile⟩ := (outline_canonicalize_eq_map tabbedMargins).2.2 htab
  exact ⟨hmixed.trans (by decide +kernel), hwidth, hpositive hspaces,
    houtline.symm.trans (hlevels.trans (by decide +kernel)), hcompile _⟩

end IndentMarkup
