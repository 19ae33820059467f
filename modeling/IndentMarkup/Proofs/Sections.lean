import IndentMarkup.Proofs.Canonical.Levels
import IndentMarkup.Proofs.Compile
import IndentMarkup.Proofs.Html.Progress
import IndentMarkup.Proofs.InlineBlock

/-!
Sections of a template. A line at level zero is never a depth jump and closes
every scope, so a section that starts with one reads and is written as if
nothing stood before it. Main statement: two such sections compile to what
each of them compiles to alone.
-/

namespace IndentMarkup

open Text

theorem outline_append_lineFeed (a b : Text) :
    outline (a ++ '\n' :: b) = outline a ++ outline b := by
  rw [outline_eq_filterMap_pieces, pieces_append_lineFeed, List.filterMap_append,
    ← outline_eq_filterMap_pieces, ← outline_eq_filterMap_pieces]

theorem jumpAfter?_of_level_eq_zero {line : Line} (previous : Option Nat) (h : line.level = 0) :
    jumpAfter? previous line = none := by
  simp [jumpAfter?, h]

section LevelZero

variable {rest : List Line} (hrest : ∀ line ∈ rest.head?, line.level = 0)

include hrest

theorem Document.diagnosticsAfter_append (previous : Option Nat) (lines : List Line) :
    diagnosticsAfter previous (lines ++ rest) =
      diagnosticsAfter previous lines ++ diagnosticsAfter none rest := by
  induction lines generalizing previous with
  | nil =>
      cases rest with
      | nil => rfl
      | cons first rest =>
          have hfirst : first.level = 0 := hrest first rfl
          rw [List.nil_append, diagnosticsAfter, diagnosticsAfter, diagnosticsAfter,
            List.nil_append, jumpAfter?_of_level_eq_zero previous hfirst,
            jumpAfter?_of_level_eq_zero none hfirst]
  | cons line lines ih =>
      rw [List.cons_append, diagnosticsAfter, diagnosticsAfter, ih, ← List.append_assoc]

theorem refuseJumpsAfter_append (previous : Option Nat) (lines : List Line) :
    refuseJumpsAfter previous (lines ++ rest) =
      (refuseJumpsAfter previous lines >>= fun _ => refuseJumpsAfter none rest) := by
  induction lines generalizing previous with
  | nil =>
      cases rest with
      | nil => rfl
      | cons first rest =>
          have hfirst : first.level = 0 := hrest first rfl
          rw [List.nil_append, refuseJumpsAfter, refuseJumpsAfter, refuseJumpsAfter,
            jumpAfter?_of_level_eq_zero previous hfirst, jumpAfter?_of_level_eq_zero none hfirst]
          rfl
  | cons line lines ih =>
      rw [List.cons_append, refuseJumpsAfter, refuseJumpsAfter]
      cases jumpAfter? previous line with
      | none => exact ih _
      | some jump => rfl

/-- Whatever is still open is finished before a line at level zero starts. -/
theorem Html.write_append (indent : Indent) (lines : List Line) :
    write indent (lines ++ rest) = write indent lines ++ write indent rest := by
  have hclosed : ∀ line ∈ rest.head?, ∀ scope ∈ stackAfter lines,
      line.level ≤ scope.line.level := by
    intro line hline scope _
    rw [hrest line hline]
    exact Nat.zero_le _
  have hlines : walk [] lines = movesThrough [] lines ++ (stackAfter lines).map .finish := by
    rw [← List.append_nil lines, walk_append, List.append_nil]
    rfl
  have hwalk := walk_append_of_closed [] hclosed
  rw [List.append_nil] at hwalk
  rw [write, write, write, ← List.flatMap_append, walk_append, hlines, List.append_assoc, ← hwalk]
  rfl

end LevelZero

theorem Document.lines_parse_ne_nil {t : Text} (h : significantLines t ≠ []) :
    (parse t).lines ≠ [] := by
  rwa [parse, ofLines, ne_eq, List.map_eq_nil_iff, separateBlocks_eq_nil_iff,
    outline_eq_map_significantLines, List.map_eq_nil_iff]

section Parse

variable {b first : Text} (hfirst : (significantLines b).head? = some first)
  (htab : first.head? ≠ some '\t')

include hfirst htab

/-- A line without leading tabs stands at level zero, and so does its part
before an inline block. -/
theorem level_of_mem_head?_separateBlocks :
    ∀ line ∈ (separateBlocks (outline b)).head?, line.level = 0 := by
  obtain ⟨rest, hlines⟩ := List.head?_eq_some_iff.mp hfirst
  have htabs : countLeading '\t' first = 0 := countLeading_replicate_append 0 htab
  rw [outline_eq_map_significantLines, hlines, List.map_cons, separateBlocks_cons,
    Line.separate_eq_cons]
  intro line hline
  rw [← Option.some.inj hline, Line.level_ownPart, htabs]

theorem Document.level_of_mem_head?_lines : ∀ line ∈ (parse b).lines.head?, line.level = 0 := by
  rw [parse, ofLines, List.head?_map]
  intro line hline
  obtain ⟨unread, hunread, rfl⟩ := Option.map_eq_some_iff.mp hline
  rw [Line.level_read, level_of_mem_head?_separateBlocks hfirst htab unread hunread]

theorem Document.parse_append_lineFeed (a : Text) :
    parse (a ++ '\n' :: b) =
      ⟨(parse a).lines ++ (parse b).lines, (parse a).diagnostics ++ (parse b).diagnostics⟩ := by
  have hzero := level_of_mem_head?_separateBlocks hfirst htab
  rw [parse, outline_append_lineFeed, separateBlocks_append, ofLines, List.map_append,
    diagnosticsAfter_append hzero]
  rfl

end Parse

/-- Two texts with a line feed between them compile to what each compiles to
alone, one after the other, if the second starts at level zero. The first
error is the one that is returned. -/
theorem compile_append_lineFeed {a b first : Text} (ha : significantLines a ≠ [])
    (hfirst : (significantLines b).head? = some first) (htab : first.head? ≠ some '\t')
    (options : Options) :
    compile options (a ++ '\n' :: b) = do
      let above ← compile options a
      let below ← compile options b
      return ⟨above.html ++ below.html, above.diagnostics ++ below.diagnostics⟩ := by
  have hb : significantLines b ≠ [] := List.ne_nil_of_mem (List.mem_of_mem_head? hfirst)
  have habove := Document.lines_parse_ne_nil ha
  have hbelow := Document.lines_parse_ne_nil hb
  have hzero := Document.level_of_mem_head?_lines hfirst htab
  have hparse := Document.parse_append_lineFeed hfirst htab a
  have hlines : (Document.parse (a ++ '\n' :: b)).lines ≠ [] := by
    rw [hparse]
    exact List.append_ne_nil_of_left_ne_nil habove _
  obtain ⟨strict, indent⟩ := options
  cases strict with
  | false =>
      rw [compile_lenient indent hlines, compile_lenient indent habove,
        compile_lenient indent hbelow, hparse, Html.write_append hzero]
      rfl
  | true =>
      rw [compile_strict indent (compile_lenient indent hlines),
        compile_strict indent (compile_lenient indent habove),
        compile_strict indent (compile_lenient indent hbelow), hparse, Html.write_append hzero]
      simp only [refuseJumps, refuseJumpsAfter_append hzero]
      cases refuseJumpsAfter none (Document.parse a).lines with
      | error jump => rfl
      | ok =>
          cases refuseJumpsAfter none (Document.parse b).lines with
          | error jump => rfl
          | ok => rfl

/-- A menu that ends three levels too deep, in an inline block with an open group. -/
def unfinishedMenu : Text := "nav\r\n\t\t\tul.menu: li(open".toList

/-- A paragraph below an empty line. -/
def closingParagraph : Text := "\r\np end\n\tem x".toList

theorem compile_append_lineFeed_unfinishedMenu :
    compile {} (unfinishedMenu ++ '\n' :: closingParagraph) =
        .ok ⟨("<nav>\n\t\t\t<ul class=\"menu\">\n\t\t\t\t<li></li>\n\t\t\t</ul>\n</nav>\n" ++
            "<p>end\n\t<em>x</em>\n</p>\n").toList,
          [.depthJump ⟨0, 3, "ul.menu:".toList⟩, .unclosedGroup "li(open".toList]⟩ ∧
      compile { strict := true } (unfinishedMenu ++ '\n' :: closingParagraph) =
        .error (.depthJump ⟨0, 3, "ul.menu:".toList⟩) := by
  have hmenu : significantLines unfinishedMenu ≠ [] := by decide +kernel
  have hfirst : (significantLines closingParagraph).head? = some "p end".toList := by
    decide +kernel
  have htab : ("p end".toList : Text).head? ≠ some '\t' := by decide
  constructor
  · rw [compile_append_lineFeed hmenu hfirst htab]
    decide +kernel
  · rw [compile_append_lineFeed hmenu hfirst htab]
    decide +kernel

end IndentMarkup
