import IndentMarkup.Proofs.Canonical.FixedPoint
import IndentMarkup.Proofs.Outline

/-!
Levels read off the raw indentation. Outlining a canonical text gives one line
for every significant line of the raw text, at the level that its own spaces
and tabs say.
-/

namespace IndentMarkup

open Text

/-- The level of a raw line in a text indented with units of this width. Tabs
behind the spaces count as well. -/
def Indentation.levelOf (width : Nat) (line : Text) : Indentation → Nat
  | .tabs => countLeading '\t' line
  | .spaces => countLeading ' ' line / width + countLeading '\t' (line.dropWhile (· == ' '))

/-- The unread lines of a document with these significant lines. -/
def linesOf (lines : List Text) : List Line :=
  lines.map fun line =>
    { level := (Indentation.ofLines lines).levelOf (unitWidth lines) line, content := trim line }

theorem Text.countLeading_replicate_append_add (c : Char) (n : Nat) (t : Text) :
    countLeading c (List.replicate n c ++ t) = n + countLeading c t := by
  induction n with
  | zero => simp
  | succ n ih =>
      rw [List.replicate_succ, List.cons_append, countLeading_cons, if_pos rfl, ih]
      omega

theorem trim_retab (width : Nat) (line : Text) : trim (retab width line) = trim line := by
  have htabs : ∀ c ∈ List.replicate (countLeading ' ' line / width) '\t', isBlank c = true :=
    List.forall_mem_replicate.mpr (.inr rfl)
  rw [retab_eq, trim_blank_append _ htabs, trim_dropWhile_eq_trim rfl]

theorem countLeading_retab (width : Nat) (line : Text) :
    countLeading '\t' (retab width line) = Indentation.spaces.levelOf width line := by
  rw [retab_eq, countLeading_replicate_append_add]
  rfl

theorem filterMap_ofText?_eq_map {lines : List Text} (h : ∀ line ∈ lines, IsSignificant line) :
    lines.filterMap Line.ofText? =
      lines.map fun line => { level := countLeading '\t' line, content := trim line } := by
  rw [← List.filterMap_eq_map]
  apply List.filterMap_congr
  intro line hline
  have hblank := (trim_isEmpty_eq_false_iff line).mpr (h line hline).nonblank
  rw [Line.ofText?_eq, if_neg (List.isEmpty_eq_false_iff.mp hblank)]
  rfl

theorem filterMap_ofText?_selectLines (pieces : List Text) :
    (selectLines pieces).filterMap Line.ofText? = pieces.filterMap Line.ofText? := by
  rw [selectLines, List.filterMap_filter, List.filterMap_map]
  congr 1
  funext piece
  rw [Function.comp_apply, ← Line.ofText?_dropEndWhile_return piece, Line.ofText?_eq]
  split <;> simp_all

/-- An outline holds the significant lines of its text. -/
theorem outline_eq_map_significantLines (t : Text) :
    outline t = (significantLines t).map fun line =>
      { level := countLeading '\t' line, content := trim line } := by
  rw [outline_eq_filterMap_pieces, ← filterMap_ofText?_selectLines]
  exact filterMap_ofText?_eq_map fun _ => isSignificant_of_mem_selectLines

theorem filterMap_ofText?_canonicalLines {lines : List Text}
    (h : ∀ line ∈ lines, IsSignificant line) :
    (canonicalLines lines).filterMap Line.ofText? = linesOf lines := by
  rw [linesOf]
  cases hstyle : Indentation.ofLines lines with
  | tabs => rw [canonicalLines_of_tabs hstyle, filterMap_ofText?_eq_map h]; rfl
  | spaces =>
      have hretab : ∀ line ∈ lines.map (retab (unitWidth lines)), IsSignificant line :=
        List.forall_mem_map.mpr fun line hline => isSignificant_retab _ (h line hline)
      rw [canonicalLines_of_spaces hstyle, filterMap_ofText?_eq_map hretab, List.map_map]
      apply List.map_congr_left
      intro line _
      rw [Function.comp_apply, trim_retab, countLeading_retab]

theorem outline_canonicalize (raw : Text) :
    outline (canonicalize raw) = linesOf (significantLines raw) := by
  by_cases hlines : significantLines raw = []
  · rw [canonicalize, hlines]
    rfl
  · rw [outline_eq_filterMap_pieces, pieces_canonicalize hlines]
    exact filterMap_ofText?_canonicalLines fun _ => isSignificant_of_mem_selectLines

end IndentMarkup
