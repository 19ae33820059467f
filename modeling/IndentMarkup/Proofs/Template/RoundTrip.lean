import IndentMarkup.Proofs.Depth
import IndentMarkup.Proofs.Outline
import IndentMarkup.Proofs.Template.Reading

/-!
Writing a template and parsing the text gives back the lines that the entries
stand for. The content of every well-formed entry is one line of which nothing
splits off, whatever its parts are, so outlining and separating do not look
into selectors; reading does not look at levels.
-/

namespace IndentMarkup

open Text Selector

/-- No inline block starts where every colon outside groups is followed by
white space alone. -/
theorem Line.inlineBlockStart?_eq_none {content : Text}
    (h : ∀ before after, content = before ++ ':' :: after → groupAfter false before = false →
      trim after = []) : inlineBlockStart? content = none := by
  rw [inlineBlockStart?]
  cases hfirst : firstOutside? (· == ':') content with
  | none => rfl
  | some n =>
      obtain ⟨before, after, rfl, rfl, _, hgroup⟩ :=
        exists_of_firstOutside?_beq_eq_some (by decide) hfirst
      have hdrop : dropBytes (byteLength before + 1) (before ++ ':' :: after) = after :=
        dropBytes_succ_append_cons after rfl
      simp [hdrop, h before after rfl hgroup]

theorem separateBlocks_eq_self {lines : List Line}
    (h : ∀ line ∈ lines, Line.inlineBlockStart? line.content = none) :
    separateBlocks lines = lines := by
  induction lines with
  | nil => rfl
  | cons line lines ih =>
      have hline : line.separate = [line] := by
        simp [Line.separate, Line.inlineBlock?, h line (by simp)]
      rw [separateBlocks_cons, hline, ih fun other hother => h other (by simp [hother])]
      rfl

namespace Template

theorem OneLine.inlineBlockStart?_eq_none {content : Text} (h : OneLine content) :
    Line.inlineBlockStart? content = none := by
  apply Line.inlineBlockStart?_eq_none
  intro before after hcontent hgroup
  rw [h.colons before after hcontent hgroup, trim_nil]

theorem OneLine.ofText?_tabs_append {content : Text} (h : OneLine content) (hne : content ≠ [])
    (level : Nat) :
    Line.ofText? (List.replicate level '\t' ++ content) = some { level, content } := by
  have htabs : ∀ c ∈ List.replicate level '\t', isBlank c = true := by
    intro c hc
    rw [List.eq_of_mem_replicate hc]
    rfl
  have hlevel : countLeading '\t' (List.replicate level '\t' ++ content) = level := by
    apply countLeading_replicate_append
    intro hhead
    exact absurd (((trim_eq_self_iff content).mp h.trim_eq).1 '\t' hhead) (by decide)
  rw [Line.ofText?_eq, trim_blank_append content htabs, h.trim_eq, if_neg hne, hlevel]

/-- A colon that a scan of `s ++ t` sees is one of `t` if a scan of `s` sees
none and ends outside groups. -/
theorem ColonsAtEnd.append {s t : Text} (ht : ColonsAtEnd t)
    (hs : ':' ∉ outsideChars false s) (hgroup : groupAfter false s = false) :
    ColonsAtEnd (s ++ t) := by
  intro before after hsplit hbefore
  -- The colon stands in `t`, or it would have to be one that a scan of `s` sees.
  rcases List.append_eq_append_iff.mp hsplit with ⟨gap, rfl, htail⟩ | ⟨gap, rfl, htail⟩
  · apply ht gap after htail
    rwa [groupAfter_append, hgroup] at hbefore
  · cases gap with
    | nil => exact ht [] after htail.symm rfl
    | cons c gap =>
        obtain ⟨rfl, -⟩ := List.cons.inj htail
        rw [outsideChars_append, hbefore] at hs
        exact absurd (List.mem_append_right _ List.mem_cons_self) hs

theorem colonsAtEnd_nil : ColonsAtEnd [] := by
  intro before after h
  simp at h

namespace Element

variable {element : Element} (h : element.WellFormed)

include h

theorem head_ne_nil : element.head ≠ [] := by
  simp [head, shorthandText, h.name_ne_nil]

theorem isBlank_of_mem_head?_head {c : Char} (hc : c ∈ element.head.head?) :
    isBlank c = false := by
  have hmem : c ∈ element.name := by
    cases hname : element.name with
    | nil => exact absurd hname h.name_ne_nil
    | cons d name =>
        rw [head, shorthandText, hname] at hc
        simp only [List.cons_append, List.head?_cons, Option.mem_some_iff] at hc
        simp [hc]
  exact (h.name_free c hmem).1

/-- A head ends with a closing parenthesis or in its shorthand part. -/
theorem isBlank_of_mem_getLast?_head {c : Char} (hc : c ∈ element.head.getLast?) :
    isBlank c = false := by
  rw [head, groupText] at hc
  split at hc
  · rw [List.append_nil] at hc
    exact (freeOf_shorthandText h c (List.mem_of_mem_getLast? hc)).1
  · rw [← List.append_assoc, List.getLast?_concat, Option.mem_some_iff] at hc
    rw [← hc]
    rfl

theorem notMem_lineFeed_head : '\n' ∉ element.head := by
  intro hmem
  rw [head, groupText] at hmem
  rcases List.mem_append.mp hmem with hshort | hgroup
  · exact absurd (freeOf_shorthandText h _ hshort).1 (by decide)
  · split at hgroup
    · cases hgroup
    · have hpairs : '\n' ∈ pairsText element.named := by simpa using hgroup
      rcases eq_space_or_free_of_mem_pairsText h.keys_free h.values_free hpairs with heq | hfree
      · exact absurd heq (by decide)
      · exact absurd hfree.1 (by decide)

theorem content_colonsAtEnd : ColonsAtEnd element.content := by
  have hcolon : ':' ∉ outsideChars false element.head :=
    (freeOf_outsideChars_head h).notMem (by simp)
  have hgroup := groupAfter_head h
  rw [content]
  split
  · exact colonsAtEnd_nil.append hcolon hgroup
  · have hspace : ColonsAtEnd ([' '] ++ element.body) :=
      h.body_oneLine.colons.append (by decide) (by decide)
    exact hspace.append hcolon hgroup

theorem content_oneLine : OneLine element.content where
  trim_eq := by
    rw [trim_eq_self_iff, content]
    constructor
    · intro c hc
      rw [List.head?_append_of_ne_nil _ (head_ne_nil h)] at hc
      exact isBlank_of_mem_head?_head h hc
    · intro c hc
      split at hc
      case isTrue =>
        rw [List.append_nil] at hc
        exact isBlank_of_mem_getLast?_head h hc
      case isFalse hbody =>
        have hlast := ((trim_eq_self_iff element.body).mp h.body_oneLine.trim_eq).2
        apply hlast
        rw [List.isEmpty_iff] at hbody
        rwa [← List.singleton_append, ← List.append_assoc,
          List.getLast?_append_of_ne_nil _ hbody] at hc
  no_lineFeed := by
    intro hmem
    rw [content] at hmem
    rcases List.mem_append.mp hmem with hhead | hbody
    · exact notMem_lineFeed_head h hhead
    · split at hbody
      · cases hbody
      · exact h.body_oneLine.no_lineFeed (by simpa using hbody)
  colons := content_colonsAtEnd h

theorem content_ne_nil : element.content ≠ [] := by
  simp [content, head_ne_nil h]

end Element

namespace Node.WellFormed

variable {node : Node}

theorem content_oneLine (h : node.WellFormed) : OneLine node.content := by
  cases node with
  | text content => exact h.oneLine
  | element parts => exact parts.content_oneLine h

theorem content_ne_nil (h : node.WellFormed) : node.content ≠ [] := by
  cases node with
  | text content => exact h.ne_nil
  | element parts => exact parts.content_ne_nil h

end Node.WellFormed

theorem PlainText.ofContent?_eq_none {content : Text} (h : PlainText content) :
    ofContent? content = none := by
  have hmark : ∀ c ∈ content.takeWhile (!isBlank ·), isMark c = false := by
    intro c hc
    simpa [isMark, and_assoc] using (h.no_mark c hc).2
  have hopen : '(' ∉ content.takeWhile (!isBlank ·) := h.no_mark.notMem (by simp)
  have hblank : ∀ c ∈ outsideChars false (content.takeWhile (!isBlank ·)),
      isBlank c = false := by
    rw [outsideChars_of_notMem_open hopen]
    intro c hc
    simpa using List.mem_takeWhile_imp hc
  -- The head is the first word: no parenthesis in it can hide a blank.
  have hhead : headOf content = content.takeWhile (!isBlank ·) := by
    have hsplit := content.takeWhile_append_dropWhile (p := (!isBlank ·))
    cases hrest : content.dropWhile (!isBlank ·) with
    | nil =>
        rw [hrest, List.append_nil] at hsplit
        rw [hsplit] at hblank ⊢
        exact headOf_self hblank
    | cons c rest =>
        have hc : isBlank c = true := by
          have hstop := List.head?_dropWhile_not (!isBlank ·) content
          rw [hrest] at hstop
          simpa using hstop
        rw [hrest] at hsplit
        conv => lhs; rw [← hsplit]
        exact headOf_append_cons hblank rest (groupAfter_of_notMem_open hopen) hc
  rw [ofContent?, hhead, nameOf?_bare hmark, h.not_name]
  rfl

namespace Entry.WellFormed

variable {entry : Entry} (h : entry.WellFormed)

include h

theorem read_eq :
    Line.read { level := entry.level, content := entry.node.content } = entry.line := by
  obtain ⟨level, node⟩ := entry
  cases node with
  | text content =>
      have hnone : ofContent? content = none := PlainText.ofContent?_eq_none h
      simp [Line.read, Entry.line, Node.content, hnone]
  | element parts =>
      have hsome : ofContent? parts.content = some parts.selector := parts.ofContent?_content h
      simp only [Line.read, Entry.line, Node.content, hsome]
      rw [parts.attributes_selector h]
      rfl

theorem findings_eq_nil :
    Line.findings { level := entry.level, content := entry.node.content } = [] := by
  obtain ⟨level, node⟩ := entry
  cases node with
  | text content =>
      have hnone : ofContent? content = none := PlainText.ofContent?_eq_none h
      simp [Line.findings, Node.content, hnone]
  | element parts =>
      have hsome : ofContent? parts.content = some parts.selector := parts.ofContent?_content h
      simp only [Line.findings, Node.content, hsome]
      exact parts.findings_selector h

end Entry.WellFormed

theorem outline_write {entries : List Entry} (h : ∀ entry ∈ entries, entry.WellFormed) :
    outline (write entries) =
      entries.map fun entry => { level := entry.level, content := entry.node.content } := by
  cases hentries : entries with
  | nil => simp [write, joinPieces, outline_eq_filterMap_pieces, pieces]
  | cons first rest =>
      rw [← hentries]
      have hpieces : (write entries).pieces = entries.map Entry.text := by
        apply List.splitOn_intercalate
        · rw [List.forall_mem_map]
          intro entry hentry hmem
          rcases List.mem_append.mp hmem with htab | hcontent
          · exact absurd (List.eq_of_mem_replicate htab) (by decide)
          · exact (h entry hentry).content_oneLine.no_lineFeed hcontent
        · simp [hentries]
      rw [outline_eq_filterMap_pieces, hpieces, List.filterMap_map, ← List.filterMap_eq_map]
      apply List.filterMap_congr
      intro entry hentry
      exact (h entry hentry).content_oneLine.ofText?_tabs_append
        (h entry hentry).content_ne_nil entry.level

/-- Parsing a written template gives back its lines, and finds nothing but
depth jumps. -/
theorem parse_write {entries : List Entry} (h : ∀ entry ∈ entries, entry.WellFormed) :
    (Document.parse (write entries)).lines = entries.map Entry.line ∧
      ∀ diagnostic ∈ (Document.parse (write entries)).diagnostics,
        ∃ jump, diagnostic = .depthJump jump := by
  have hlines : separateBlocks (outline (write entries)) =
      entries.map fun entry => { level := entry.level, content := entry.node.content } := by
    rw [outline_write h]
    apply separateBlocks_eq_self
    rw [List.forall_mem_map]
    intro entry hentry
    exact (h entry hentry).content_oneLine.inlineBlockStart?_eq_none
  rw [Document.parse, Document.ofLines, hlines]
  constructor
  · rw [List.map_map]
    apply List.map_congr_left
    intro entry hentry
    exact Entry.WellFormed.read_eq (h entry hentry)
  · apply Document.exists_depthJump_of_mem_diagnosticsAfter
    rw [List.forall_mem_map]
    intro entry hentry
    exact Entry.WellFormed.findings_eq_nil (h entry hentry)

/-- Marks where they mean nothing: stray parentheses in a name, a class and a
text, a second `#` in an id, delimiters in a value, colons in groups and at
the end of a body; and a depth jump. -/
def hiddenMarks : List Entry :=
  [{ level := 0
     node := .element
      { name := "a)".toList
        id? := some "x#y".toList
        classes := ["b".toList, "c)".toList]
        named := [⟨"href".toList, "/(p:.#".toList⟩, ⟨"q".toList, []⟩]
        body := "see (it: now) so:".toList } },
   { level := 3, node := .text "Hello) (x: y".toList },
   { level := 1, node := .element { name := "li".toList } }]

theorem parse_write_hiddenMarks :
    (∀ entry ∈ hiddenMarks, entry.WellFormed) ∧
      write hiddenMarks =
        "a)#x#y.b.c)(href:/(p:.# q:) see (it: now) so:\n\t\t\tHello) (x: y\n\tli".toList ∧
      (Document.parse (write hiddenMarks)).lines = hiddenMarks.map Entry.line ∧
      ∀ diagnostic ∈ (Document.parse (write hiddenMarks)).diagnostics,
        ∃ jump, diagnostic = .depthJump jump := by
  have hwellFormed : ∀ entry ∈ hiddenMarks, entry.WellFormed := by decide +kernel
  exact ⟨hwellFormed, by decide +kernel, parse_write hwellFormed⟩

end Template

end IndentMarkup
