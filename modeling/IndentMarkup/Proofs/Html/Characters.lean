import IndentMarkup.Proofs.Html.Walk
import IndentMarkup.Proofs.Provenance

/-!
The characters of written lines: those of the lines and of the indent, and the
marks of tags, attributes and line ends.
-/

namespace IndentMarkup.Html

/-- The characters that writing adds of its own. -/
def marks : Text := "</ =\">\n".toList

/-- Those among them that stand around keys and values. -/
def attributeMarks : Text := " =\"".toList

section Characters

variable {P : Char → Prop} {indent : Indent}

theorem forall_mem_unit (h : ∀ c ∈ indent.text, P c) : ∀ c ∈ indent.unit, P c := by
  intro c hc
  obtain ⟨text, htext, hmem⟩ := List.mem_flatten.mp hc
  rw [List.eq_of_mem_replicate htext] at hmem
  exact h c hmem

theorem forall_mem_indentation (hindent : ∀ c ∈ indent.unit, P c) (level : Nat) :
    ∀ c ∈ indentation indent level, P c := by
  intro c hc
  rw [indentation_eq_replicate_unit] at hc
  obtain ⟨unit, hunit, hmem⟩ := List.mem_flatten.mp hc
  rw [List.eq_of_mem_replicate hunit] at hmem
  exact hindent c hmem

theorem forall_mem_flatMap_attributeText (hmarks : ∀ c ∈ attributeMarks, P c)
    {attrs : Attributes} (h : attrs.Within P) :
    ∀ c ∈ attrs.toList.flatMap attributeText, P c := by
  rw [List.forall_mem_flatMap]
  intro item hitem
  obtain ⟨hkey, hvalue⟩ := h item hitem
  have hquotes : ∀ c ∈ [' '] ++ "=\"".toList ++ "\"".toList, P c := by
    have hsubset : [' '] ++ "=\"".toList ++ "\"".toList ⊆ attributeMarks := by decide
    exact fun c hc => hmarks c (hsubset hc)
  simp only [List.forall_mem_append] at hquotes
  obtain ⟨⟨hspace, hequals⟩, hquote⟩ := hquotes
  rw [attributeText, ← List.singleton_append]
  simp only [List.forall_mem_append]
  exact ⟨⟨⟨⟨hspace, hkey⟩, hequals⟩, hvalue⟩, hquote⟩

variable (hmarks : ∀ c ∈ marks, P c)

include hmarks

theorem forall_mem_startText (hindent : ∀ c ∈ indent.unit, P c) {line : Line}
    (hline : line.Within P) : ∀ c ∈ startText indent line, P c := by
  have hpad := forall_mem_indentation hindent line.level
  cases htag : line.tag with
  | text =>
      have hfeed : ∀ c ∈ ['\n'], P c := by simpa using hmarks '\n' (by decide)
      simp only [startText, htag, List.forall_mem_append]
      exact ⟨hpad, hline.content, hfeed⟩
  | element name =>
      have hname := hline.name name (by rw [htag]; rfl)
      have hsubset : attributeMarks ⊆ marks := by decide
      have hattrs :=
        forall_mem_flatMap_attributeText (fun c hc => hmarks c (hsubset hc)) hline.attrs
      have hopen := hmarks '<' (by decide)
      have hclose := hmarks '>' (by decide)
      simp only [startText, htag, List.forall_mem_append, List.forall_mem_cons]
      exact ⟨hpad, ⟨⟨hopen, hname⟩, hattrs⟩, hclose, hline.body⟩

theorem forall_mem_finishText (hindent : ∀ c ∈ indent.unit, P c) {scope : Scope}
    (hline : scope.line.Within P) : ∀ c ∈ finishText indent scope, P c := by
  have hpad := forall_mem_indentation hindent scope.line.level
  cases htag : scope.line.tag with
  | text => simp [finishText, htag]
  | element name =>
      have hname := hline.name name (by rw [htag]; rfl)
      have hends : ∀ c ∈ "</".toList ++ ">\n".toList, P c := by
        have hsubset : "</".toList ++ ">\n".toList ⊆ marks := by decide
        exact fun c hc => hmarks c (hsubset hc)
      simp only [List.forall_mem_append] at hends
      simp only [finishText, htag, List.forall_mem_append]
      refine ⟨⟨⟨?_, hends.1⟩, hname⟩, hends.2⟩
      split
      · simp
      · exact hpad

/-- Everything written is made of characters of the lines, of the indent and
of the marks. -/
theorem forall_mem_write (hindent : ∀ c ∈ indent.unit, P c) {lines : List Line}
    (hlines : ∀ line ∈ lines, line.Within P) : ∀ c ∈ write indent lines, P c := by
  rw [write, List.forall_mem_flatMap]
  intro move hmove
  have hline : ∀ line ∈ move.line?, line.Within P :=
    forall_line?_walk (by simp) hlines move hmove
  cases move with
  | start line => exact forall_mem_startText hmarks hindent (hline line rfl)
  | endLine => simpa [Move.text] using hmarks '\n' (by decide)
  | finish scope => exact forall_mem_finishText hmarks hindent (hline scope.line rfl)

end Characters

end IndentMarkup.Html
