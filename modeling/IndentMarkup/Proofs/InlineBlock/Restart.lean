import IndentMarkup.Proofs.InlineBlock.Selector

/-!
Scans of parts of a line. Heads and children are scanned anew, each from its
own start, and the offsets found in one are used in the other. Main statement:
a scan can be cut anywhere and started anew outside groups, and this is all
that is done to it.
-/

namespace IndentMarkup

open Text
open Selector (headEnd headOf byteLength_headOf)

/-- A child stands outside groups in its line. -/
theorem Line.exists_before_child {line parent child : Line}
    (h : line.inlineBlock? = some (parent, child)) :
    ∃ before after, line.content = before ++ (child.content ++ after) ∧
      groupAfter false before = false := by
  obtain ⟨before, rest, hcontent, -, hgroup, -, hparts⟩ := exists_of_inlineBlock?_eq_some h
  obtain ⟨-, hchild⟩ := List.cons.inj hparts
  obtain rfl := List.singleton_inj.mp hchild
  -- White space between the colon and the child opens no group.
  obtain ⟨front, back, hrest, hfront, -⟩ := exists_eq_append_trim_append rest
  have hopen : '(' ∉ front := fun hmem => absurd (hfront _ hmem) (by decide)
  refine ⟨before ++ ':' :: front, back, ?_, ?_⟩
  · rw [hcontent]
    conv => lhs; rw [hrest]
    simp
  · rw [groupAfter_append, hgroup, groupAfter_cons]
    exact groupAfter_of_notMem_open hopen

/-- Scans can be cut and started anew. Behind a text that leaves no group open, a scan goes on
like a new one; what is seen and found in a beginning is what is seen and found in the whole,
as far as the beginning reaches. So the head of a line and the child of its inline block, each
scanned on its own, are seen as they are in the line. -/
theorem outsideGroups_restarts (s t : Text) :
    (groupAfter false s = false → outsideGroups (s ++ t) =
        outsideGroups s ++ (outsideGroups t).map (Prod.map (byteLength s + ·) id)) ∧
      outsideGroups s = (outsideGroups (s ++ t)).filter (·.1 < byteLength s) ∧
      (∀ p, firstOutside? p s = (firstOutside? p (s ++ t)).filter (· < byteLength s)) ∧
      (∀ content, ∃ rest, content = headOf content ++ rest ∧
        outsideGroups (headOf content) =
          (outsideGroups content).filter (·.1 < headEnd content)) ∧
      ∀ line parent child : Line, line.inlineBlock? = some (parent, child) →
        ∃ before after, line.content = before ++ (child.content ++ after) ∧
          groupAfter false before = false ∧
          (outsideGroups child.content).map (Prod.map (byteLength before + ·) id) =
            (outsideGroups line.content).filter fun entry =>
              byteLength before ≤ entry.1 ∧
                entry.1 < byteLength before + byteLength child.content := by
  refine ⟨outsideGroups_append t, outsideGroups_eq_filter s t,
    fun p => firstOutside?_eq_filter p s t, ?_, ?_⟩
  · intro content
    have hcontent := takeBytes_append_dropBytes (headEnd content) content
    refine ⟨dropBytes (headEnd content) content, hcontent.symm, ?_⟩
    have hhead := outsideGroups_eq_filter (headOf content) (dropBytes (headEnd content) content)
    rwa [headOf, hcontent, ← headOf, byteLength_headOf] at hhead
  · intro line parent child h
    obtain ⟨before, after, hcontent, hgroup⟩ := Line.exists_before_child h
    refine ⟨before, after, hcontent, hgroup, ?_⟩
    rw [hcontent]
    exact map_outsideGroups_part child.content after hgroup

/-- A line up to its block: a group that holds a parenthesis, and one that closes no group. -/
def unevenFront : Text := "é(a:(b) x) : ".toList

def unevenLine : Line := { level := 0, content := unevenFront ++ " li(c:d) e".toList }

theorem outsideGroups_restarts_unevenLine :
    outsideGroups unevenLine.content =
        outsideGroups unevenFront ++
          [(14, ' '), (15, 'l'), (16, 'i'), (17, '('), (21, ')'), (22, ' '), (23, 'e')] ∧
      firstOutside? (· == ':') (unevenFront.take 6) = none ∧
      ∃ before after, unevenLine.content = before ++ ("li(c:d) e".toList ++ after) ∧
        groupAfter false before = false ∧
        (outsideGroups "li(c:d) e".toList).map (Prod.map (byteLength before + ·) id) =
          (outsideGroups unevenLine.content).filter fun entry =>
            byteLength before ≤ entry.1 ∧ entry.1 < byteLength before + 9 := by
  have hfront : groupAfter false unevenFront = false := by decide
  have hblock : unevenLine.inlineBlock? =
      some ({ level := 0, content := "é(a:(b) x) :".toList },
        { level := 1, content := "li(c:d) e".toList }) := by decide +kernel
  obtain ⟨hrestart, -, -, -, hchild⟩ :=
    outsideGroups_restarts unevenFront " li(c:d) e".toList
  obtain ⟨-, -, hfound, -, -⟩ := outsideGroups_restarts (unevenFront.take 6) (unevenFront.drop 6)
  refine ⟨(hrestart hfront).trans (by decide +kernel), ?_, hchild _ _ _ hblock⟩
  exact (hfound _).trans (by decide +kernel)

end IndentMarkup
