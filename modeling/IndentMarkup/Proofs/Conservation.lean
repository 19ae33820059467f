import IndentMarkup.Proofs.Canonical.Basic
import IndentMarkup.Proofs.Outline

/-!
What canonical text and outlines keep. Lines are dropped, cut and indented
anew, but all of that touches white space only: the other characters of a
text are the same ones in the same order before and after.
-/

namespace IndentMarkup

namespace Text

/-- The characters that are not white space, in order. -/
def nonblank (t : Text) : Text := t.filter (!isBlank ·)

theorem nonblank_append (s t : Text) : nonblank (s ++ t) = nonblank s ++ nonblank t :=
  List.filter_append ..

theorem nonblank_eq_nil_iff (t : Text) : nonblank t = [] ↔ ∀ c ∈ t, isBlank c = true := by
  simp [nonblank, List.filter_eq_nil_iff]

theorem nonblank_trim (t : Text) : nonblank (trim t) = nonblank t := by
  obtain ⟨front, back, ht, hfront, hback⟩ := exists_eq_append_trim_append t
  have happend : nonblank t = nonblank front ++ nonblank (trim t) ++ nonblank back := by
    rw [← nonblank_append, ← nonblank_append, ← ht]
  rw [happend, (nonblank_eq_nil_iff front).mpr hfront, (nonblank_eq_nil_iff back).mpr hback]
  simp

theorem nonblank_dropEndWhile {p : Char → Bool} (hp : ∀ c, p c = true → isBlank c = true)
    (t : Text) : nonblank (dropEndWhile p t) = nonblank t := by
  obtain ⟨tail, ht, htail⟩ := exists_eq_dropEndWhile_append p t
  have hblank := (nonblank_eq_nil_iff tail).mpr fun c hc => hp c (htail c hc)
  conv => rhs; rw [ht]
  rw [nonblank_append, hblank, List.append_nil]

theorem nonblank_dropWhile {p : Char → Bool} (hp : ∀ c, p c = true → isBlank c = true)
    (t : Text) : nonblank (t.dropWhile p) = nonblank t := by
  have hblank := (nonblank_eq_nil_iff (t.takeWhile p)).mpr fun c hc =>
    hp c (List.mem_takeWhile_imp hc)
  conv => rhs; rw [← List.takeWhile_append_dropWhile (p := p) (l := t)]
  rw [nonblank_append, hblank, List.nil_append]

/-- The line feeds between the parts are white space. -/
theorem nonblank_joinPieces (parts : List Text) :
    nonblank (joinPieces parts) = parts.flatMap nonblank := by
  induction parts with
  | nil => rfl
  | cons part parts ih =>
      -- There is no line feed after the last part.
      cases parts with
      | nil => simp [joinPieces]
      | cons other parts =>
          have hfeed : nonblank ['\n'] = [] := by decide
          rw [joinPieces, List.intercalate_cons_cons, nonblank_append, nonblank_append, hfeed,
            List.append_nil, List.flatMap_cons, ← ih]
          rfl

theorem flatMap_nonblank_pieces (t : Text) : t.pieces.flatMap nonblank = nonblank t := by
  rw [← nonblank_joinPieces, joinPieces_pieces]

end Text

open Text

section Canonical

theorem nonblank_retab (width : Nat) (line : Text) :
    nonblank (retab width line) = nonblank line := by
  have htabs : nonblank (List.replicate (countLeading ' ' line / width) '\t') = [] := by
    rw [nonblank_eq_nil_iff]
    intro c hc
    rw [List.eq_of_mem_replicate hc]
    rfl
  have hspace : ∀ c : Char, (c == ' ') = true → isBlank c = true := by
    intro c hc
    rw [eq_of_beq hc]
    rfl
  rw [retab_eq, nonblank_append, htabs, List.nil_append, nonblank_dropWhile hspace]

theorem flatMap_nonblank_canonicalLines (lines : List Text) :
    (canonicalLines lines).flatMap nonblank = lines.flatMap nonblank := by
  cases hstyle : Indentation.ofLines lines with
  | tabs => rw [canonicalLines_of_tabs hstyle]
  | spaces =>
      rw [canonicalLines_of_spaces hstyle, List.flatMap_map]
      congr 1
      funext line
      exact nonblank_retab _ line

/-- A line that is left out holds white space only. -/
theorem flatMap_nonblank_filter (lines : List Text) :
    (lines.filter fun line => !(trim line).isEmpty).flatMap nonblank = lines.flatMap nonblank := by
  induction lines with
  | nil => rfl
  | cons line lines ih =>
      rw [List.filter_cons, List.flatMap_cons, ← ih]
      split
      case isTrue => rfl
      case isFalse hblank =>
        have hempty : trim line = [] := by simpa using hblank
        rw [← nonblank_trim line, hempty]
        rfl

theorem flatMap_nonblank_significantLines (raw : Text) :
    (significantLines raw).flatMap nonblank = nonblank raw := by
  have hreturn : ∀ c : Char, (c == '\r') = true → isBlank c = true := by
    intro c hc
    rw [eq_of_beq hc]
    rfl
  rw [significantLines, flatMap_nonblank_filter, List.flatMap_map, ← flatMap_nonblank_pieces raw]
  congr 1
  funext piece
  exact nonblank_dropEndWhile hreturn piece

theorem nonblank_canonicalize (raw : Text) : nonblank (canonicalize raw) = nonblank raw := by
  rw [canonicalize, nonblank_joinPieces, flatMap_nonblank_canonicalLines,
    flatMap_nonblank_significantLines]

end Canonical

section Outline

theorem outline_eq_nil_iff (t : Text) : outline t = [] ↔ nonblank t = [] := by
  rw [outline_eq_filterMap_pieces, ← flatMap_nonblank_pieces, List.filterMap_eq_nil_iff,
    List.flatMap_eq_nil_iff]
  refine forall₂_congr fun piece _ => ?_
  rw [Line.ofText?_eq_none_iff, nonblank_eq_nil_iff]

end Outline

end IndentMarkup
