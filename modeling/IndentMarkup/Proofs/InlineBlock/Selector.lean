import IndentMarkup.Proofs.InlineBlock
import IndentMarkup.Proofs.Selector.Characters

/-!
What a parent reads as without its block. The colon of the block is a mark
outside groups, so the head of the line either ends before it or holds it, and
in both cases the name is settled by then. Main statement: a line and the
parent of its block are the same element or both text, and they have the same
attributes if the colon stands behind the head.
-/

namespace IndentMarkup

open Text

namespace Selector

theorem byteLength_headOf (content : Text) : byteLength (headOf content) = headEnd content := by
  obtain ⟨-, hblank⟩ | ⟨before, c, after, rfl, -, hc, hbefore, hgroup⟩ :=
    mark_cases (p := isBlank) rfl content
  · rw [headOf_self hblank, headEnd_self hblank]
  · rw [headOf_append_cons hbefore after hgroup hc, headEnd_append_cons hbefore after hgroup hc]

/-- A head ends before a mark outside groups, or it holds the mark and goes on behind it. -/
theorem headOf_append_mark_cases {before : Text} {mark : Char}
    (hgroup : groupAfter false before = false) (hmark : isBlank mark = false) :
    (∃ head, ∀ rest, headOf (before ++ mark :: rest) = head) ∨
      ∀ rest, ∃ more, headOf (before ++ mark :: rest) = before ++ mark :: more := by
  obtain ⟨-, hblank⟩ | ⟨head, c, gap, rfl, -, hc, hhead, hopen⟩ :=
    mark_cases (p := isBlank) rfl before
  · right
    intro rest
    refine ⟨beforeMark isBlank (groupAfter false [mark]) rest, ?_⟩
    rw [headOf_eq, beforeMark_append hblank, hgroup, beforeMark, if_neg (by simp [hmark])]
  · left
    refine ⟨head, fun rest => ?_⟩
    rw [List.append_assoc, List.cons_append, headOf_append_cons hhead _ hopen hc]

/-- What follows a mark has no say in the name. -/
theorem nameOf?_append_mark {mark : Char} (h : isMark mark = true) (before rest other : Text) :
    nameOf? (before ++ mark :: rest) = nameOf? (before ++ mark :: other) := by
  have hany (t : Text) : (before ++ mark :: t).any isMark = true := by simp [h]
  have hend (t : Text) : (mark :: t).takeWhile (!isMark ·) = [] :=
    List.takeWhile_cons_of_neg (by simp [h])
  have htake : (before ++ mark :: rest).takeWhile (!isMark ·) =
      (before ++ mark :: other).takeWhile (!isMark ·) := by
    rw [List.takeWhile_append, List.takeWhile_append, hend, hend]
  rw [nameOf?_eq, nameOf?_eq, hany, hany, htake, if_pos rfl, if_pos rfl]

theorem ofContent?_of_headOf_eq {content other : Text} (h : headOf content = headOf other) :
    ofContent? content =
      (ofContent? other).map fun selector => { selector with body := bodyOf content } := by
  rw [ofContent?, ofContent?, h, Option.map_map]
  rfl

/-- Findings name the content, but their codes come from the group alone. -/
theorem map_code_findings_of_group_eq {selector otherSelector : Selector} (content other : Text)
    (h : selector.group = otherSelector.group) :
    (findings content selector).map Diagnostic.code =
      (findings other otherSelector).map Diagnostic.code := by
  rw [findings, findings, h]
  cases otherSelector.group with
  | absent => rfl
  | unclosed => rfl
  | closed inner =>
      rw [List.map_map, List.map_map]
      rfl

end Selector

namespace Line

open Selector

theorem tag_read (line : Line) :
    line.read.tag = ((nameOf? (headOf line.content)).map Tag.element).getD .text := by
  rw [read, ofContent?]
  cases nameOf? (headOf line.content) <;> rfl

section Head

variable {line other : Line} (h : headOf line.content = headOf other.content)

include h

theorem attrs_read_of_headOf_eq : line.read.attrs = other.read.attrs := by
  rw [read, read, ofContent?_of_headOf_eq h]
  cases ofContent? other.content <;> rfl

theorem map_code_findings_of_headOf_eq :
    line.findings.map Diagnostic.code = other.findings.map Diagnostic.code := by
  rw [findings, findings, ofContent?_of_headOf_eq h]
  cases ofContent? other.content with
  | none => rfl
  | some selector => exact map_code_findings_of_group_eq _ _ rfl

end Head

section Block

variable {line parent child : Line} (h : line.inlineBlock? = some (parent, child))

include h

/-- A line and its parent have the same head, or both heads hold the colon of the block. -/
theorem headOf_parent_cases :
    headOf parent.content = headOf line.content ∨
      ∃ before less more, firstOutside? (· == ':') line.content = some (byteLength before) ∧
        headOf parent.content = before ++ ':' :: less ∧
        headOf line.content = before ++ ':' :: more := by
  obtain ⟨before, after, hcontent, hcolon, hgroup, -, hparts⟩ :=
    exists_of_inlineBlock?_eq_some h
  obtain ⟨rfl, -⟩ := List.cons.inj hparts
  have hmark : isBlank ':' = false := rfl
  rw [hcontent]
  rcases headOf_append_mark_cases hgroup hmark with ⟨head, hhead⟩ | hhead
  · exact .inl ((hhead []).trans (hhead after).symm)
  · obtain ⟨less, hparent⟩ := hhead []
    obtain ⟨more, hline⟩ := hhead after
    exact .inr ⟨before, less, more, firstOutside?_beq_append_cons after hcolon hgroup, hparent,
      hline⟩

theorem nameOf?_headOf_parent :
    nameOf? (headOf parent.content) = nameOf? (headOf line.content) := by
  rcases headOf_parent_cases h with hhead | ⟨before, less, more, -, hparent, hline⟩
  · rw [hhead]
  · rw [hparent, hline]
    exact nameOf?_append_mark rfl before less more

theorem headOf_parent_of_headEnd_le {colon : Nat}
    (hcolon : firstOutside? (· == ':') line.content = some colon)
    (hend : headEnd line.content ≤ colon) : headOf parent.content = headOf line.content := by
  rcases headOf_parent_cases h with hhead | ⟨before, less, more, hfirst, -, hline⟩
  · exact hhead
  · -- A head that holds the colon would end behind it.
    obtain rfl := Option.some.inj (hfirst.symm.trans hcolon)
    rw [← byteLength_headOf, hline, byteLength_append, byteLength_cons] at hend
    have hpos := ':'.utf8Size_pos
    omega

end Block

/-- Without its inline block a line is the same element, or text as before. If
the colon of the block stands behind the head of the selector, it also has the
same attributes, and findings with the same codes in the same order. -/
theorem tag_readAfter_parent {line parent child : Line}
    (h : line.inlineBlock? = some (parent, child)) (found : List Diagnostic) :
    (parent.readAfter found).1.tag = (line.readAfter found).1.tag ∧
      ∀ colon, firstOutside? (· == ':') line.content = some colon →
        headEnd line.content ≤ colon →
          (parent.readAfter found).1.attrs = (line.readAfter found).1.attrs ∧
            (parent.readAfter found).2.map Diagnostic.code =
              (line.readAfter found).2.map Diagnostic.code := by
  constructor
  · rw [readAfter, readAfter, tag_read, tag_read, nameOf?_headOf_parent h]
  · intro colon hcolon hend
    have hhead := headOf_parent_of_headEnd_le h hcolon hend
    refine ⟨attrs_read_of_headOf_eq hhead, ?_⟩
    rw [readAfter, readAfter, List.map_append, List.map_append,
      map_code_findings_of_headOf_eq hhead]

/-- A link with a colon in its group and the one of its block in its body. -/
def labelledLink : Line :=
  { level := 1, content := "a.btn(href:/x bare) go) to: b more".toList }

def labelledLinkParent : Line :=
  { level := 1, content := "a.btn(href:/x bare) go) to:".toList }

/-- A list whose block starts inside its head. -/
def tightMenu : Line := { level := 0, content := "ul:#a li".toList }

def tightMenuParent : Line := { level := 0, content := "ul:".toList }

theorem tag_readAfter_parent_labelledLink :
    ((labelledLinkParent.readAfter []).1.tag = .element "a".toList ∧
        (labelledLinkParent.readAfter []).1.attrs.toList =
          [⟨"class".toList, "btn".toList⟩, ⟨"href".toList, "/x".toList⟩] ∧
        (labelledLinkParent.readAfter []).2.map Diagnostic.code = ["W_ATTR_UNRESOLVED".toList]) ∧
      (tightMenuParent.readAfter []).1.tag = .element "ul".toList ∧
      (tightMenuParent.readAfter []).1.attrs ≠ (tightMenu.readAfter []).1.attrs := by
  have hlink : labelledLink.inlineBlock? =
      some (labelledLinkParent, { level := 2, content := "b more".toList }) := by decide +kernel
  have hmenu : tightMenu.inlineBlock? =
      some (tightMenuParent, { level := 1, content := "#a li".toList }) := by decide +kernel
  obtain ⟨htag, hbehind⟩ := tag_readAfter_parent hlink []
  obtain ⟨hattrs, hcodes⟩ := hbehind 26 (by decide +kernel) (by decide +kernel)
  refine ⟨⟨htag.trans (by decide +kernel), ?_, hcodes.trans (by decide +kernel)⟩,
    (tag_readAfter_parent hmenu []).1.trans (by decide +kernel), by decide +kernel⟩
  rw [hattrs]
  decide +kernel

end Line

end IndentMarkup
