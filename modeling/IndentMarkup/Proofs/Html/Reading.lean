import IndentMarkup.Proofs.Html.Balance
import IndentMarkup.Proofs.Html.Reindent
import Mathlib.Data.List.Forall2

/-!
Reading lines back from HTML. A row is the text of a line, a start tag with
what follows it, or an end tag, and its first characters tell which. Values
stand between double quotes, so quotes are what attributes are cut at. Main
statement: documents that write the same HTML have the same lines, except for
the spelling of their selectors.
-/

namespace IndentMarkup

open Text

namespace Line

/-- Lines that do not differ in anything that is written. -/
structure Alike (line other : Line) : Prop where
  level : line.level = other.level
  tag : line.tag = other.tag
  attrs : line.attrs = other.attrs
  body : line.body = other.body
  content : line.tag = .text → line.content = other.content

/-- A line without the spelling of its selector. -/
def shown (line : Line) : Line :=
  match line.tag with
  | .text => line
  | .element _ => { line with content := [] }

theorem shown_of_text {line : Line} (h : line.tag = .text) : line.shown = line := by
  rw [shown, h]

theorem shown_of_element {line : Line} {name : Text} (h : line.tag = .element name) :
    line.shown = { line with content := [] } := by
  rw [shown, h]

@[simp] theorem level_shown (line : Line) : line.shown.level = line.level := by
  cases htag : line.tag <;> simp [shown, htag]

@[simp] theorem tag_shown (line : Line) : line.shown.tag = line.tag := by
  cases htag : line.tag <;> simp [shown, htag]

@[simp] theorem attrs_shown (line : Line) : line.shown.attrs = line.attrs := by
  cases htag : line.tag <;> simp [shown, htag]

@[simp] theorem body_shown (line : Line) : line.shown.body = line.body := by
  cases htag : line.tag <;> simp [shown, htag]

theorem alike_of_shown_eq {line other : Line} (h : line.shown = other.shown) :
    line.Alike other where
  level := by rw [← level_shown, h, level_shown]
  tag := by rw [← tag_shown, h, tag_shown]
  attrs := by rw [← attrs_shown, h, attrs_shown]
  body := by rw [← body_shown, h, body_shown]
  content := by
    intro htext
    have hother : other.tag = .text := by rw [← tag_shown, ← h, tag_shown, htext]
    rw [shown_of_text htext, shown_of_text hother] at h
    rw [h]

/-- A text line holds nothing but its content. -/
theorem attrs_and_body_read {line : Line} (h : line.read.tag = .text) :
    line.read.attrs = .empty ∧ line.read.body = [] := by
  rw [read] at h ⊢
  split at h
  case h_1 => exact ⟨rfl, rfl⟩
  case h_2 => cases h

end Line

namespace Html

/-- Keys with a space before and an equals sign behind them, and values, in turns. -/
def attributesOfParts : List Text → List Attribute
  | marked :: value :: rest => ⟨marked.tail.dropLast, value⟩ :: attributesOfParts rest
  | _ => []

def readAttributes (t : Text) : Attributes := ⟨attributesOfParts (t.splitOn '"')⟩

/-- The line that a row starts; end tags start none. -/
def Row.line? (row : Row) : Option Line :=
  match row.text with
  | [] => none
  | c :: rest =>
    if c = '<' then
      let inner := rest.takeWhile (· != '>')
      match TagMark.ofInner inner with
      | .closing _ => none
      | .opening name =>
        some {
          level := row.level
          content := []
          tag := .element name
          attrs := readAttributes (inner.dropWhile (· != ' '))
          body := (rest.dropWhile (· != '>')).tail.takeWhile (· != '<') }
    else some { level := row.level, content := row.text }

/-- The lines that the rows of an HTML text start. -/
def readLines (html : Text) : List Line := (html.pieces.map Row.ofPiece).filterMap Row.line?

/-- A character that HTML has no other use for. -/
def IsBare (c : Char) : Prop := c ∉ ['<', '>', '"', '\n']

/-- A line that can be read back. -/
structure Legible (line : Line) : Prop where
  content : IsContent line.content
  bare : line.Within IsBare
  unspaced : ∀ name ∈ line.tag.name?, ' ' ∉ name
  unslashed : ∀ name ∈ line.tag.name?, ¬ IsSlashed name
  text : line.tag = .text → line.attrs = .empty ∧ line.body = []

section Reading

theorem notMem_of_isBare {c : Char} {t : Text} (h : ∀ d ∈ t, IsBare d)
    (hc : c ∈ ['<', '>', '"', '\n']) : c ∉ t :=
  fun hmem => h c hmem hc

theorem readAttributes_flatMap_attributeText {attrs : Attributes} (h : attrs.Within IsBare) :
    readAttributes (attrs.toList.flatMap attributeText) = attrs := by
  obtain ⟨items⟩ := attrs
  rw [readAttributes]
  congr 1
  change ∀ item ∈ items, _ at h
  induction items with
  | nil => rfl
  | cons item items ih =>
      rw [List.forall_mem_cons] at h
      obtain ⟨hkey, hvalue⟩ := h.1
      have hmarked : '"' ∉ ' ' :: item.key ++ ['='] := by
        simp [notMem_of_isBare hkey]
      have htext : (item :: items).flatMap attributeText =
          (' ' :: item.key ++ ['=']) ++
            '"' :: (item.value ++ '"' :: items.flatMap attributeText) := by
        simp [attributeText]
      rw [htext, List.splitOn_append_cons_self_of_not_mem hmarked,
        List.splitOn_append_cons_self_of_not_mem (notMem_of_isBare hvalue (by decide)),
        attributesOfParts, ih h.2]
      simp

section Row

variable {line : Line}

/-- An end tag starts no line. -/
theorem line?_of_mem_endRow? {row : Row} {leaf : Bool} (h : row ∈ line.endRow? leaf) :
    row.line? = none := by
  obtain ⟨name, -, rfl⟩ := exists_of_mem_endRow? h
  simp [Row.line?, Forest.endTag, TagMark.ofInner]

variable (hline : Legible line)

include hline

theorem Legible.unbroken : line.Unbroken where
  content := hline.content
  fields := hline.bare.mono fun c hc hfeed => hc (by simp [hfeed])

theorem Legible.plain : line.Within IsPlain :=
  hline.bare.mono fun c hc => by
    simp only [IsBare, List.mem_cons, not_or] at hc
    exact ⟨hc.1, hc.2.1⟩

theorem Legible.line?_startRow_of_text (leaf : Bool) (htag : line.tag = .text) :
    (line.startRow leaf).line? = some line := by
  obtain ⟨c, rest, hcontent⟩ := List.exists_cons_of_ne_nil hline.content.ne_nil
  have hopen : c ≠ '<' := by
    have hmem : c ∈ line.content := hcontent ▸ List.mem_cons_self
    exact ne_of_mem_of_not_mem hmem (notMem_of_isBare hline.bare.content (by decide))
  obtain ⟨hattrs, hbody⟩ := hline.text htag
  have heq : line = { level := line.level, content := c :: rest } := by
    rw [← hcontent]
    cases line
    simp_all
  rw [Row.line?, text_startRow_of_text leaf htag, hcontent]
  conv => rhs; rw [heq]
  exact if_neg hopen

theorem Legible.line?_startRow_of_element {name : Text} (leaf : Bool)
    (htag : line.tag = .element name) :
    (line.startRow leaf).line? = some { line with content := [] } := by
  have hname : name ∈ line.tag.name? := by rw [htag]; rfl
  have hinner : '>' ∉ name ++ attributesText line :=
    notMem_close_startTag hline.plain hname
  have hbody : (line.body ++ if leaf then Forest.endTag name else []).takeWhile (· != '<') =
      line.body := by
    apply takeWhile_bne_append (notMem_of_isBare hline.bare.body (by decide))
    cases leaf <;> simp [Forest.endTag]
  have hattrs : readAttributes ((name ++ attributesText line).dropWhile (· != ' ')) =
      line.attrs := by
    rw [dropWhile_bne_append (hline.unspaced name hname) (head?_attributesText line)]
    exact readAttributes_flatMap_attributeText hline.bare.attrs
  have hopening := ofInner_startTag line (hline.unspaced name hname) (hline.unslashed name hname)
  have htake := takeWhile_bne_append hinner
    (t := '>' :: (line.body ++ if leaf then Forest.endTag name else [])) (by simp)
  have hdrop := dropWhile_bne_append hinner
    (t := '>' :: (line.body ++ if leaf then Forest.endTag name else [])) (by simp)
  rw [Row.line?, text_startRow_of_element leaf htag]
  simp only [if_true, htake, hdrop, hopening, hattrs, hbody, List.tail_cons]
  rw [htag]
  rfl

theorem Legible.line?_startRow (leaf : Bool) : (line.startRow leaf).line? = some line.shown := by
  cases htag : line.tag with
  | text => rw [hline.line?_startRow_of_text leaf htag, Line.shown_of_text htag]
  | element name => rw [hline.line?_startRow_of_element leaf htag, Line.shown_of_element htag]

end Row

section Forest

theorem filterMap_line?_rows {forest : Forest} (h : ∀ line ∈ forest.toLines, Legible line) :
    forest.rows.filterMap Row.line? = forest.toLines.map Line.shown := by
  induction forest with
  | empty => rfl
  | tree line children siblings ihChildren ihSiblings =>
      simp only [Forest.toLines, List.cons_append, List.forall_mem_cons,
        List.forall_mem_append] at h
      obtain ⟨hline, hchildren, hsiblings⟩ := h
      have hend : (line.endRow? children.isEmpty).toList.filterMap Row.line? = [] := by
        rw [List.filterMap_eq_nil_iff]
        intro row hrow
        exact line?_of_mem_endRow? (Option.mem_toList.mp hrow)
      rw [Forest.rows, Forest.toLines, List.filterMap_append, List.filterMap_append, hend,
        List.append_nil, List.filterMap_cons_some (hline.line?_startRow _), ihChildren hchildren,
        ihSiblings hsiblings, List.map_append, List.map_cons]

/-- Legible lines are read back in order, and nothing else is. -/
theorem readLines_write {lines : List Line} (h : ∀ line ∈ lines, Legible line) :
    readLines (write .tab lines) = lines.map Line.shown := by
  have hlines : ∀ line ∈ (Forest.ofLines lines).toLines, Legible line := by
    rwa [Forest.toLines_ofLines]
  have hunbroken := fun line hline => (hlines line hline).unbroken
  have hunit : Indent.unit .tab = ['\t'] := unit_of_text _
  rw [readLines, write_eq_flatMap_rows, hunit,
    map_ofPiece_pieces_flatMap_write (separable_of_mem_rows hunbroken), List.filterMap_append,
    filterMap_line?_rows hlines, Forest.toLines_ofLines]
  simp [Row.line?]

end Forest

end Reading

section Parse

/-- A text with nothing in it that could be taken for a tag or for the end of a
value. -/
structure Unmarked (t : Text) : Prop where
  no_mark : ∀ c ∈ t, c ∉ ['<', '>', '"']
  no_slash : ∀ line ∈ (Document.parse t).lines, ∀ name ∈ line.tag.name?, ¬ IsSlashed name

theorem Unmarked.isBare_of_mem_content {t : Text} (h : Unmarked t) {line : Line}
    (hline : line ∈ (Document.parse t).lines) : ∀ c ∈ line.content, IsBare c := by
  have hown : ∀ c ∈ Selector.synthesized, c ∉ ['<', '>', '"'] :=
    List.forall_iff_forall_mem.mp (by decide)
  have hmarks := (Document.within_of_mem_lines hown h.no_mark line hline).content
  have hfeed := (Document.isContent_of_mem_parse hline).no_lineFeed
  intro c hc hmem
  -- The marks come from the source, the line feed ends the line.
  rcases List.mem_append.mp (show c ∈ ['<', '>', '"'] ++ ['\n'] from hmem) with hmark | hend
  · exact hmarks c hc hmark
  · exact hfeed (List.mem_singleton.mp hend ▸ hc)

theorem Unmarked.legible_of_mem_parse {t : Text} (h : Unmarked t) {line : Line}
    (hline : line ∈ (Document.parse t).lines) : Legible line := by
  have hown : ∀ c ∈ Selector.synthesized, c ∉ ['<', '>', '"', '\n'] :=
    List.forall_iff_forall_mem.mp (by decide)
  have hcontent := h.isBare_of_mem_content hline
  obtain ⟨unread, -, hread⟩ := List.mem_map.mp hline
  rw [← hread, Line.content_read] at hcontent
  exact {
    content := Document.isContent_of_mem_parse hline
    bare := hread ▸ Line.within_read (P := IsBare) hown hcontent
    unspaced := unspaced_of_mem_parse hline
    unslashed := h.no_slash line hline
    text := hread ▸ Line.attrs_and_body_read }

/-- Documents of such texts that write the same HTML have as many lines, which
differ from one another at most in the spelling of their selectors. -/
theorem forall₂_alike_of_write_eq {t u : Text} (ht : Unmarked t) (hu : Unmarked u)
    (h : write .tab (Document.parse t).lines = write .tab (Document.parse u).lines) :
    List.Forall₂ Line.Alike (Document.parse t).lines (Document.parse u).lines := by
  have hshown : (Document.parse t).lines.map Line.shown =
      (Document.parse u).lines.map Line.shown := by
    rw [← readLines_write fun _ => ht.legible_of_mem_parse, h,
      readLines_write fun _ => hu.legible_of_mem_parse]
  rw [← List.forall₂_eq_eq_eq, List.forall₂_map_left_iff, List.forall₂_map_right_iff] at hshown
  exact hshown.imp fun _ _ => Line.alike_of_shown_eq

/-- A menu with its attributes in marks, and a key that holds an equals sign. -/
def markedMenu : Text := "ul.menu\n\tli#last.a.b(k=v:x) some words\n\t\tmore words".toList

/-- The same menu with other spellings and other white space. -/
def respelledMenu : Text :=
  "ul(class:menu)\r\n\r\n\tli.a.b#last( k=v:x )\t some words\n\t\tmore words\n".toList

theorem forall₂_alike_of_write_eq_respelledMenu :
    (Document.parse markedMenu).lines ≠ (Document.parse respelledMenu).lines ∧
      List.Forall₂ Line.Alike (Document.parse markedMenu).lines
        (Document.parse respelledMenu).lines := by
  have hmarked : Unmarked markedMenu :=
    ⟨List.forall_iff_forall_mem.mp (by decide), by decide +kernel⟩
  have hrespelled : Unmarked respelledMenu :=
    ⟨List.forall_iff_forall_mem.mp (by decide), by decide +kernel⟩
  exact ⟨by decide +kernel, forall₂_alike_of_write_eq hmarked hrespelled (by decide +kernel)⟩

end Parse

end Html

end IndentMarkup
