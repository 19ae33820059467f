import IndentMarkup.Proofs.Html.Characters
import IndentMarkup.Proofs.Html.Nesting

/-!
The tags of an HTML text, read character by character, and a check that they
are balanced. Nothing in a written text is escaped, so what is read back as a
tag depends on the characters of the lines; on lines without angle brackets
the tags that are read are the ones that the moves of the walk have written.
-/

namespace IndentMarkup.Html

open Text

inductive TagMark
  | opening (name : Text)
  | closing (name : Text)
  deriving DecidableEq, Repr

/-- A name runs up to the first space, or to the end of the tag. -/
def tagName (inner : Text) : Text := inner.takeWhile (· != ' ')

/-- The tag with this text between its angle brackets. -/
def TagMark.ofInner : Text → TagMark
  | '/' :: rest => .closing (tagName rest)
  | inner => .opening (tagName inner)

/-- Reads tags outside or, after `inner`, inside a tag. A text that ends
inside a tag cannot be read. -/
def readTags : Option Text → Text → Option (List TagMark)
  | none, [] => some []
  | some _, [] => none
  | none, c :: rest => if c = '<' then readTags (some []) rest else readTags none rest
  | some inner, c :: rest =>
    if c = '>' then (readTags none rest).map (.ofInner inner :: ·)
    else readTags (some (inner ++ [c])) rest

/-- An opening tag with the names that are open around it, outermost first. -/
structure Opening where
  name : Text
  around : List Text
  deriving DecidableEq, Repr

/-- Checks that each closing tag has the name that was opened last, and that
no name stays open. The open names are given innermost first. -/
def balance : List Text → List TagMark → Option (List Opening)
  | [], [] => some []
  | _ :: _, [] => none
  | stack, .opening name :: rest => (balance (name :: stack) rest).map (⟨name, stack.reverse⟩ :: ·)
  | [], .closing _ :: _ => none
  | top :: below, .closing name :: rest => if name = top then balance below rest else none

/-- The opening tags of a text if its tags are balanced. -/
def scan (html : Text) : Option (List Opening) := (readTags none html).bind (balance [])

section Reading

theorem readTags_none_append {t : Text} (rest : Text) (h : '<' ∉ t) :
    readTags none (t ++ rest) = readTags none rest := by
  induction t with
  | nil => rfl
  | cons c t ih =>
      rw [List.mem_cons, not_or] at h
      rw [List.cons_append, readTags, if_neg (Ne.symm h.1), ih h.2]

theorem readTags_some_append {t : Text} (inner rest : Text) (h : '>' ∉ t) :
    readTags (some inner) (t ++ rest) = readTags (some (inner ++ t)) rest := by
  induction t generalizing inner with
  | nil => rw [List.nil_append, List.append_nil]
  | cons c t ih =>
      rw [List.mem_cons, not_or] at h
      rw [List.cons_append, readTags, if_neg (Ne.symm h.1), ih _ h.2]
      simp

theorem readTags_tag {inner : Text} (rest : Text) (h : '>' ∉ inner) :
    readTags none ('<' :: (inner ++ '>' :: rest)) =
      (readTags none rest).map (.ofInner inner :: ·) := by
  rw [readTags, if_pos rfl, readTags_some_append [] _ h, List.nil_append, readTags, if_pos rfl]

end Reading

/-- The attributes of a start tag as they are written. -/
def attributesText (line : Line) : Text := line.attrs.toList.flatMap attributeText

namespace Move

/-- The tags that a move writes. -/
def tags : Move → List TagMark
  | start line =>
    line.tag.name?.toList.map fun name => .ofInner (name ++ attributesText line)
  | endLine => []
  | finish scope => scope.line.tag.name?.toList.map .closing

end Move

/-- Neither angle bracket. -/
def IsPlain (c : Char) : Prop := c ≠ '<' ∧ c ≠ '>'

/-- A line whose tags are read back as they are written. -/
structure Readable (line : Line) : Prop where
  plain : line.Within IsPlain
  unspaced : ∀ name ∈ line.tag.name?, ' ' ∉ name

section Writing

variable {indent : Indent} {line : Line}

theorem notMem_open {t : Text} (h : ∀ c ∈ t, IsPlain c) : '<' ∉ t :=
  fun hmem => (h _ hmem).1 rfl

theorem notMem_close {t : Text} (h : ∀ c ∈ t, IsPlain c) : '>' ∉ t :=
  fun hmem => (h _ hmem).2 rfl

theorem isPlain_of_notMem {t : Text} (hopen : '<' ∉ t) (hclose : '>' ∉ t) : ∀ c ∈ t, IsPlain c :=
  fun _ hc => ⟨ne_of_mem_of_not_mem hc hopen, ne_of_mem_of_not_mem hc hclose⟩

theorem isPlain_of_mem_attributesText (h : line.attrs.Within IsPlain) :
    ∀ c ∈ attributesText line, IsPlain c := by
  have hmarks : '<' ∉ attributeMarks ∧ '>' ∉ attributeMarks := by decide
  exact forall_mem_flatMap_attributeText (isPlain_of_notMem hmarks.1 hmarks.2) h

theorem notMem_close_startTag {name : Text} (h : line.Within IsPlain)
    (hname : name ∈ line.tag.name?) : '>' ∉ name ++ attributesText line := by
  rw [List.mem_append, not_or]
  exact ⟨notMem_close (h.name name hname), notMem_close (isPlain_of_mem_attributesText h.attrs)⟩

theorem readTags_startText (hindent : ∀ c ∈ indent.unit, IsPlain c) (hline : Readable line)
    (rest : Text) :
    readTags none (startText indent line ++ rest) =
      (readTags none rest).map ((Move.start line).tags ++ ·) := by
  have hpad := notMem_open (forall_mem_indentation hindent line.level)
  cases htag : line.tag with
  | text =>
      have hcontent : '<' ∉ line.content ++ ['\n'] := by simp [notMem_open hline.plain.content]
      rw [startText, htag, List.append_assoc, readTags_none_append _ hpad,
        readTags_none_append _ hcontent]
      simp [Move.tags, htag, Tag.name?]
  | element name =>
      have hinner : '>' ∉ name ++ attributesText line :=
        notMem_close_startTag hline.plain (by rw [htag]; rfl)
      have htext : startText indent line ++ rest =
          indentation indent line.level ++
            '<' :: (name ++ attributesText line ++ '>' :: (line.body ++ rest)) := by
        simp [startText, htag, attributesText]
      rw [htext, readTags_none_append _ hpad, readTags_tag _ hinner,
        readTags_none_append _ (notMem_open hline.plain.body)]
      simp [Move.tags, htag, Tag.name?]

theorem tagName_append {name : Text} (rest : Text) (h : ' ' ∉ name)
    (hrest : ∀ c ∈ rest.head?, c = ' ') : tagName (name ++ rest) = name :=
  takeWhile_bne_append h hrest

theorem tagName_eq_self {name : Text} (h : ' ' ∉ name) : tagName name = name := by
  have hname := tagName_append [] h (by simp)
  rwa [List.append_nil] at hname

theorem readTags_finishText {scope : Scope} (hindent : ∀ c ∈ indent.unit, IsPlain c)
    (hline : Readable scope.line) (rest : Text) :
    readTags none (finishText indent scope ++ rest) =
      (readTags none rest).map ((Move.finish scope).tags ++ ·) := by
  cases htag : scope.line.tag with
  | text => simp [finishText, Move.tags, htag, Tag.name?]
  | element name =>
      have hname : name ∈ scope.line.tag.name? := by rw [htag]; rfl
      have hpad : '<' ∉ if scope.pending then [] else indentation indent scope.line.level := by
        split
        · simp
        · exact notMem_open (forall_mem_indentation hindent _)
      have hinner : '>' ∉ '/' :: name := by
        simpa using notMem_close (hline.plain.name name hname)
      have htext : finishText indent scope ++ rest =
          (if scope.pending then [] else indentation indent scope.line.level) ++
            '<' :: ('/' :: name ++ '>' :: (['\n'] ++ rest)) := by
        simp [finishText, htag]
      have hfeed : '<' ∉ ['\n'] := by decide
      rw [htext, readTags_none_append _ hpad, readTags_tag _ hinner,
        readTags_none_append _ hfeed]
      have hclosing : tagName name = name := tagName_eq_self (hline.unspaced name hname)
      simp [Move.tags, htag, Tag.name?, TagMark.ofInner, hclosing]

theorem readTags_flatMap {moves : List Move} (hindent : ∀ c ∈ indent.unit, IsPlain c)
    (hmoves : ∀ move ∈ moves, ∀ line ∈ move.line?, Readable line) :
    readTags none (moves.flatMap (Move.text indent)) = some (moves.flatMap Move.tags) := by
  induction moves with
  | nil => rfl
  | cons move moves ih =>
      have hmove := hmoves move List.mem_cons_self
      have hrest := ih fun other hother => hmoves other (List.mem_cons_of_mem _ hother)
      rw [List.flatMap_cons, List.flatMap_cons]
      cases move with
      | start line =>
          rw [Move.text, readTags_startText hindent (hmove line rfl), hrest, Option.map_some]
      | endLine =>
          have hfeed : '<' ∉ ['\n'] := by decide
          rw [Move.text, readTags_none_append _ hfeed, hrest]
          rfl
      | finish scope =>
          rw [Move.text, readTags_finishText hindent (hmove scope.line rfl), hrest, Option.map_some]

/-- What is read back from written lines is what the moves have written. -/
theorem readTags_write {lines : List Line} (hindent : ∀ c ∈ indent.unit, IsPlain c)
    (hlines : ∀ line ∈ lines, Readable line) :
    readTags none (write indent lines) = some ((walk [] lines).flatMap Move.tags) :=
  readTags_flatMap hindent (forall_line?_walk (by simp) hlines)

end Writing

end IndentMarkup.Html
