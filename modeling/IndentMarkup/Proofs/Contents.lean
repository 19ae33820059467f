import IndentMarkup.Document
import IndentMarkup.Proofs.InlineBlock

/-!
The contents of the lines of a document. Main statement: every character of a
raw text that is not white space stands in the content of exactly one line, in
the order of the text, and every line has content.
-/

namespace IndentMarkup

open Text

section Outline

theorem Line.isContent_of_ofText? {t : Text} {line : Line} (hfeed : '\n' ∉ t)
    (h : ofText? t = some line) : IsContent line.content := by
  obtain ⟨hcontent, rfl⟩ := (ofText?_eq_some_iff t line).mp h
  exact isContent_trim hfeed hcontent

theorem isContent_of_mem_outline {t : Text} {line : Line} (h : line ∈ outline t) :
    IsContent line.content := by
  rw [outline_eq_filterMap_pieces] at h
  obtain ⟨piece, hpiece, hsome⟩ := List.mem_filterMap.mp h
  exact Line.isContent_of_ofText? (lineFeed_notMem_of_mem_pieces hpiece) hsome

theorem nonblank_flatMap_filterMap_ofText? (pieces : List Text) :
    nonblank ((pieces.filterMap Line.ofText?).flatMap Line.content) =
      pieces.flatMap nonblank := by
  induction pieces with
  | nil => rfl
  | cons piece pieces ih =>
      rw [List.flatMap_cons, ← ih]
      cases hline : Line.ofText? piece with
      | none =>
          have hblank := (Line.ofText?_eq_none_iff piece).mp hline
          rw [List.filterMap_cons_none hline, (nonblank_eq_nil_iff piece).mpr hblank,
            List.nil_append]
      | some line =>
          have hnonblank : nonblank line.content = nonblank piece := by
            obtain ⟨-, rfl⟩ := (Line.ofText?_eq_some_iff piece line).mp hline
            exact nonblank_trim piece
          rw [List.filterMap_cons_some hline, List.flatMap_cons, nonblank_append, hnonblank]

theorem nonblank_flatMap_outline (t : Text) :
    nonblank ((outline t).flatMap Line.content) = nonblank t := by
  rw [outline_eq_filterMap_pieces, nonblank_flatMap_filterMap_ofText?, flatMap_nonblank_pieces]

end Outline

section Document

theorem Document.flatMap_content_parse (canonical : Text) :
    (parse canonical).lines.flatMap Line.content =
      (separateBlocks (outline canonical)).flatMap Line.content := by
  rw [parse, ofLines, List.flatMap_map]
  congr 1
  funext line
  exact line.content_read

theorem Document.isContent_of_mem_parse {canonical : Text} {line : Line}
    (h : line ∈ (parse canonical).lines) : IsContent line.content := by
  obtain ⟨part, hpart, rfl⟩ := List.mem_map.mp h
  obtain ⟨whole, hwhole, hpart⟩ := List.mem_flatMap.mp hpart
  rw [Line.content_read]
  exact Line.isContent_of_mem_separate (isContent_of_mem_outline hwhole) hpart

/-- Nothing but white space is lost, doubled or moved on the way to the lines
of a document, and each of them has content. -/
theorem nonblank_contents_parse (raw : Text) :
    nonblank ((Document.parse (canonicalize raw)).lines.flatMap Line.content) = nonblank raw ∧
      ∀ line ∈ (Document.parse (canonicalize raw)).lines,
        line.content ≠ [] ∧ '\n' ∉ line.content ∧ trim line.content = line.content := by
  constructor
  · rw [Document.flatMap_content_parse, nonblank_flatMap_separateBlocks,
      nonblank_flatMap_outline, nonblank_canonicalize]
  · intro line hline
    have hcontent := Document.isContent_of_mem_parse hline
    exact ⟨hcontent.ne_nil, hcontent.no_lineFeed, hcontent.trim_eq⟩

/-- A list whose head holds a colon in a group, and whose items stand in
inline blocks with white space around the colons. -/
def looseMenu : Text := "ul(a:b) :\r\n  li.x:   b one  \r\r\n\n \u00a0li: i: two".toList

theorem nonblank_contents_parse_looseMenu :
    nonblank ((Document.parse (canonicalize looseMenu)).lines.flatMap Line.content) =
        "ul(a:b):li.x:boneli:i:two".toList ∧
      ∃ line ∈ (Document.parse (canonicalize looseMenu)).lines,
        line.level = 2 ∧ line.content = "b one".toList ∧
          line.content ≠ [] ∧ '\n' ∉ line.content ∧ trim line.content = line.content := by
  obtain ⟨hnonblank, hlines⟩ := nonblank_contents_parse looseMenu
  obtain ⟨line, hline, hlevel, hcontent⟩ : ∃ line ∈
      (Document.parse (canonicalize looseMenu)).lines,
      line.level = 2 ∧ line.content = "b one".toList := by decide +kernel
  exact ⟨hnonblank.trans (by decide +kernel), line, hline, hlevel, hcontent, hlines line hline⟩

end Document

end IndentMarkup
