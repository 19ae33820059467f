import IndentMarkup.Proofs.Contents
import IndentMarkup.Proofs.Html.Rows
import IndentMarkup.Proofs.Html.Tags

/-!
Indenting an HTML text anew. A row starts with nothing but its indentation,
because neither content nor a tag starts with a tab, and no field of a read
line can break a row in two. Main statement: the text of a document under any
indent is its text with tabs in which the leading tabs of every line have been
replaced.
-/

namespace IndentMarkup

open Text

/-- A line whose content and fields stay on the rows that they are written to. -/
structure Line.Unbroken (line : Line) : Prop where
  content : IsContent line.content
  fields : line.Within (· ≠ '\n')

theorem Document.unbroken_of_mem_parse {t : Text} {line : Line} (h : line ∈ (parse t).lines) :
    line.Unbroken := by
  have hcontent := isContent_of_mem_parse h
  refine ⟨hcontent, ?_⟩
  obtain ⟨unread, -, rfl⟩ := List.mem_map.mp h
  have hown : '\n' ∉ Selector.synthesized := by decide
  have hfeed := hcontent.no_lineFeed
  rw [Line.content_read] at hfeed
  exact Line.within_read (fun c hc => ne_of_mem_of_not_mem hc hown)
    fun c hc => ne_of_mem_of_not_mem hc hfeed

namespace Html

section Separable

variable {line : Line}

theorem text_startRow_of_text (leaf : Bool) (htag : line.tag = .text) :
    (line.startRow leaf).text = line.content := by
  rw [Line.startRow, htag]

theorem text_startRow_of_element {name : Text} (leaf : Bool) (htag : line.tag = .element name) :
    (line.startRow leaf).text = '<' :: (name ++ attributesText line ++
      '>' :: (line.body ++ if leaf then Forest.endTag name else [])) := by
  simp [Line.startRow, htag, Forest.startTag, attributesText]

theorem exists_of_mem_endRow? {row : Row} {leaf : Bool} (h : row ∈ line.endRow? leaf) :
    ∃ name ∈ line.tag.name?, row = ⟨line.level, Forest.endTag name⟩ := by
  cases htag : line.tag with
  | text => simp [Line.endRow?, htag] at h
  | element name =>
      obtain ⟨-, heq⟩ : leaf = false ∧ ⟨line.level, Forest.endTag name⟩ = row := by
        simpa [Line.endRow?, htag] using h
      exact ⟨name, rfl, heq.symm⟩

variable (h : line.Unbroken)

include h

theorem lineFeed_notMem_attributesText : '\n' ∉ attributesText line := by
  have hmarks : '\n' ∉ attributeMarks := by decide
  intro hmem
  exact forall_mem_flatMap_attributeText (fun c hc => ne_of_mem_of_not_mem hc hmarks)
    h.fields.attrs _ hmem rfl

theorem lineFeed_notMem_endTag {name : Text} (hname : name ∈ line.tag.name?) :
    '\n' ∉ Forest.endTag name := by
  have hfeed : '\n' ∉ name := fun hmem => h.fields.name name hname _ hmem rfl
  simp [Forest.endTag, hfeed]

theorem lineFeed_notMem_startRow (leaf : Bool) : '\n' ∉ (line.startRow leaf).text := by
  cases htag : line.tag with
  | text =>
      rw [text_startRow_of_text leaf htag]
      exact h.content.no_lineFeed
  | element name =>
      have hname : name ∈ line.tag.name? := by rw [htag]; rfl
      have hfeed : '\n' ∉ name := fun hmem => h.fields.name name hname _ hmem rfl
      have hattrs := lineFeed_notMem_attributesText h
      have hbody : '\n' ∉ line.body := fun hmem => h.fields.body _ hmem rfl
      have hend : '\n' ∉ if leaf then Forest.endTag name else [] := by
        cases leaf <;> simp [lineFeed_notMem_endTag h hname]
      rw [text_startRow_of_element leaf htag]
      simp only [List.mem_cons, List.mem_append, not_or]
      exact ⟨by decide, ⟨hfeed, hattrs⟩, by decide, hbody, hend⟩

theorem separable_startRow (leaf : Bool) : (line.startRow leaf).Separable := by
  refine ⟨lineFeed_notMem_startRow h leaf, ?_⟩
  cases htag : line.tag with
  | text =>
      rw [text_startRow_of_text leaf htag]
      exact h.content.head?_ne rfl
  | element name =>
      rw [text_startRow_of_element leaf htag, List.head?_cons]
      decide

theorem separable_of_mem_endRow? {row : Row} {leaf : Bool} (hrow : row ∈ line.endRow? leaf) :
    row.Separable := by
  obtain ⟨name, hname, rfl⟩ := exists_of_mem_endRow? hrow
  exact ⟨lineFeed_notMem_endTag h hname, by simp [Forest.endTag]⟩

end Separable

theorem separable_of_mem_rows {forest : Forest} (h : ∀ line ∈ forest.toLines, line.Unbroken) :
    ∀ row ∈ forest.rows, row.Separable := by
  induction forest with
  | empty => simp [Forest.rows]
  | tree line children siblings ihChildren ihSiblings =>
      simp only [Forest.toLines, List.cons_append, List.forall_mem_cons,
        List.forall_mem_append] at h
      obtain ⟨hline, hchildren, hsiblings⟩ := h
      simp only [Forest.rows, List.cons_append, List.forall_mem_cons, List.forall_mem_append]
      refine ⟨separable_startRow hline _, ⟨ihChildren hchildren, ?_⟩, ihSiblings hsiblings⟩
      intro row hrow
      exact separable_of_mem_endRow? hline (Option.mem_toList.mp hrow)

section Reindent

/-- A line with `unit` in the place of each of its leading tabs. -/
def reindentLine (unit line : Text) : Text :=
  (List.replicate (countLeading '\t' line) unit).flatten ++ line.dropWhile (· == '\t')

/-- A text with every line indented anew that a line feed ends. What stands
after the last line feed is kept as it is. -/
def reindent (unit t : Text) : Text :=
  joinPieces (t.pieces.dropLast.map (reindentLine unit) ++ t.pieces.getLast?.toList)

theorem reindentLine_tabs_append {t : Text} (unit : Text) (level : Nat)
    (h : t.head? ≠ some '\t') :
    reindentLine unit (List.replicate level '\t' ++ t) =
      (List.replicate level unit).flatten ++ t := by
  rw [reindentLine, countLeading_replicate_append _ h, dropWhile_replicate_append _ h]

theorem reindent_append_lineFeed {line : Text} (unit rest : Text) (h : '\n' ∉ line) :
    reindent unit (line ++ '\n' :: rest) =
      reindentLine unit line ++ '\n' :: reindent unit rest := by
  obtain ⟨init, last, hrest⟩ : ∃ init last, rest.pieces = init ++ [last] :=
    ⟨_, _, (List.dropLast_append_getLast (pieces_ne_nil rest)).symm⟩
  rw [reindent, reindent, pieces_append_lineFeed, pieces_eq_singleton h, hrest,
    ← List.append_assoc, List.dropLast_concat, List.dropLast_concat, List.getLast?_concat,
    List.getLast?_concat, List.singleton_append, List.map_cons, List.cons_append, joinPieces,
    joinPieces]
  -- There is a piece left, so the line is joined to it by a line feed.
  cases init with
  | nil => rfl
  | cons piece init => simp [List.intercalate_cons_cons]

/-- Rows keep their text, and their indentation is that of the unit. -/
theorem reindent_flatMap_write (unit : Text) {rows : List Row} (h : ∀ row ∈ rows, row.Separable) :
    reindent unit (rows.flatMap (Row.write ['\t'])) = rows.flatMap (Row.write unit) := by
  induction rows with
  | nil => rfl
  | cons row rows ih =>
      rw [List.forall_mem_cons] at h
      rw [flatMap_write_tab_cons, reindent_append_lineFeed unit _ h.1.lineFeed_notMem,
        reindentLine_tabs_append unit _ h.1.no_tab, ih h.2]
      simp [Row.write]

theorem write_eq_reindent (indent : Indent) {lines : List Line}
    (h : ∀ line ∈ lines, line.Unbroken) :
    write indent lines = reindent indent.unit (write .tab lines) := by
  have hunit : Indent.unit .tab = ['\t'] := unit_of_text _
  have hrows : ∀ row ∈ (Forest.ofLines lines).rows, row.Separable := by
    apply separable_of_mem_rows
    rwa [Forest.toLines_ofLines]
  rw [write_eq_flatMap_rows, write_eq_flatMap_rows, hunit, reindent_flatMap_write _ hrows]

/-- An indent puts its text in the place of every leading tab of every line,
and changes nothing else. -/
theorem write_parse_eq_reindent (t text : Text) :
    write { text } (Document.parse t).lines =
      reindent text (write .tab (Document.parse t).lines) := by
  rw [write_eq_reindent { text } fun _ => Document.unbroken_of_mem_parse, unit_of_text]

example : reindent "--".toList "\t<p>\tx\n\t\ty \t\n</p>\n\tend".toList =
    "--<p>\tx\n----y \t\n</p>\n\tend".toList := by decide

end Reindent

end Html

end IndentMarkup
