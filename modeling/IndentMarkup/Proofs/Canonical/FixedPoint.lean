import IndentMarkup.Proofs.Canonical.Basic

/-!
Canonical texts, described without the algorithm. Main statement: they are
what canonicalization returns, and exactly the texts that it leaves alone.
-/

namespace IndentMarkup

open Text

/-- Pieces that a canonical text can consist of. -/
structure CanonicalPieces (pieces : List Text) : Prop where
  significant : ∀ piece ∈ pieces, IsSignificant piece
  /-- The first indented piece is indented with a tab. -/
  tab_first : ∀ piece ∈ pieces.find? isIndented, piece.head? = some '\t'

def IsCanonical (t : Text) : Prop := t = [] ∨ CanonicalPieces t.pieces

/-- Lines that are indented anew no longer start with spaces, and other lines
were not indented with spaces before. -/
theorem ofLines_canonicalLines (lines : List Text) :
    Indentation.ofLines (canonicalLines lines) = .tabs := by
  cases hstyle : Indentation.ofLines lines with
  | tabs => rwa [canonicalLines_of_tabs hstyle]
  | spaces =>
      rw [canonicalLines_of_spaces hstyle]
      apply Indentation.ofLines_eq_tabs_of_forall
      rw [List.forall_mem_map]
      exact fun line _ => head?_retab_ne _ line

theorem canonicalLines_eq_nil_iff (lines : List Text) :
    canonicalLines lines = [] ↔ lines = [] := by
  cases hstyle : Indentation.ofLines lines with
  | tabs => rw [canonicalLines_of_tabs hstyle]
  | spaces => rw [canonicalLines_of_spaces hstyle, List.map_eq_nil_iff]

theorem pieces_canonicalize {raw : Text} (h : significantLines raw ≠ []) :
    (canonicalize raw).pieces = canonicalLines (significantLines raw) := by
  apply pieces_joinPieces (mt (canonicalLines_eq_nil_iff _).mp h)
  exact forall_mem_canonicalLines (fun width _ => lineFeed_notMem_retab width)
    fun _ => lineFeed_notMem_of_mem_significantLines

theorem canonicalPieces_canonicalLines {lines : List Text}
    (h : ∀ line ∈ lines, IsSignificant line) : CanonicalPieces (canonicalLines lines) where
  significant := forall_mem_canonicalLines (fun width _ => isSignificant_retab width) h
  tab_first := (Indentation.ofLines_eq_tabs_iff _).mp (ofLines_canonicalLines lines)

theorem isCanonical_canonicalize (raw : Text) : IsCanonical (canonicalize raw) := by
  by_cases hlines : significantLines raw = []
  · left
    rw [canonicalize, hlines]
    rfl
  · right
    rw [pieces_canonicalize hlines]
    exact canonicalPieces_canonicalLines fun _ => isSignificant_of_mem_selectLines

theorem canonicalize_eq_self {t : Text} (h : IsCanonical t) : canonicalize t = t := by
  rcases h with rfl | hpieces
  · rfl
  · have hstyle := (Indentation.ofLines_eq_tabs_iff _).mpr hpieces.tab_first
    rw [canonicalize, significantLines_eq, selectLines_eq_self hpieces.significant,
      canonicalLines_of_tabs hstyle, joinPieces_pieces]

theorem canonicalize_canonicalize (raw : Text) :
    canonicalize (canonicalize raw) = canonicalize raw :=
  canonicalize_eq_self (isCanonical_canonicalize raw)

theorem head?_ne_of_mem_pieces_canonicalize {raw piece : Text}
    (hstyle : Indentation.ofLines (significantLines raw) = .spaces)
    (h : piece ∈ (canonicalize raw).pieces) : piece.head? ≠ some ' ' := by
  have hlines : significantLines raw ≠ [] := by
    intro hnil
    rw [hnil] at hstyle
    cases hstyle
  rw [pieces_canonicalize hlines, canonicalLines_of_spaces hstyle] at h
  obtain ⟨line, -, rfl⟩ := List.mem_map.mp h
  exact head?_retab_ne _ line

/-- Canonicalization returns canonical texts, and the canonical texts are the
ones that it leaves alone, so a second pass changes nothing. A text indented
with spaces has none left at the start of a line. -/
theorem isCanonical_iff_canonicalize_eq_self (t : Text) :
    IsCanonical (canonicalize t) ∧
      ((∃ raw, canonicalize raw = t) ↔ IsCanonical t) ∧
      (canonicalize t = t ↔ IsCanonical t) ∧
      canonicalize (canonicalize t) = canonicalize t ∧
      (Indentation.ofLines (significantLines t) = .spaces →
        ∀ piece ∈ (canonicalize t).pieces, piece.head? ≠ some ' ') := by
  refine ⟨isCanonical_canonicalize t, ⟨?_, fun h => ⟨t, canonicalize_eq_self h⟩⟩,
    ⟨fun h => h ▸ isCanonical_canonicalize t, canonicalize_eq_self⟩,
    canonicalize_canonicalize t, fun hstyle _ => head?_ne_of_mem_pieces_canonicalize hstyle⟩
  rintro ⟨raw, rfl⟩
  exact isCanonical_canonicalize raw

/-- Indented with three spaces, with spaces left over, spaces before a tab,
stacked carriage returns, and a piece of white space that is indented first. -/
def unevenSpaces : Text := "\t \r\np\r\r\n   em\r\n     b x\r\n  i\n \ts\r".toList

theorem isCanonical_iff_canonicalize_eq_self_unevenSpaces :
    Indentation.ofLines (significantLines unevenSpaces) = .spaces ∧
      canonicalize unevenSpaces = "p\n\tem\n\tb x\ni\n\ts".toList ∧
      IsCanonical (canonicalize unevenSpaces) ∧
      canonicalize (canonicalize unevenSpaces) = canonicalize unevenSpaces ∧
      ∀ piece ∈ (canonicalize unevenSpaces).pieces, piece.head? ≠ some ' ' := by
  have hstyle : Indentation.ofLines (significantLines unevenSpaces) = .spaces := by decide +kernel
  obtain ⟨hcanonical, -, -, htwice, hspaces⟩ :=
    isCanonical_iff_canonicalize_eq_self unevenSpaces
  exact ⟨hstyle, by decide +kernel, hcanonical, htwice, hspaces hstyle⟩

end IndentMarkup
