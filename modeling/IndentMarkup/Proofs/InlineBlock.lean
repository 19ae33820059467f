import IndentMarkup.Line.InlineBlock
import IndentMarkup.Proofs.Conservation
import IndentMarkup.Proofs.Text.Group

/-!
What separating an inline block does to a line. A line stays whole or falls
apart after its first colon outside groups, and both parts have content if
the line has.
-/

namespace IndentMarkup

open Text

namespace Line

/-- The two parts of a line that falls apart after `before` and a colon. -/
def blockParts (line : Line) (before after : Text) : List Line :=
  [{ line with content := before ++ [':'] },
   { level := nextLevel line.level, content := trim after }]

/-- What stays at the level of the line: the parent of its inline block, or the line itself. -/
def ownPart (line : Line) : Line := (line.inlineBlock?.map (·.1)).getD line

/-- A line that falls apart does not stand at the last level, so a level is left for its child. -/
def HasRoom (line : Line) : Prop := line.inlineBlock?.isSome → line.level + 1 < UInt64.size

instance (line : Line) : Decidable line.HasRoom := inferInstanceAs (Decidable (_ → _))

/-- A line with an inline block falls apart at its first colon outside groups. -/
theorem exists_of_inlineBlock?_eq_some {line parent child : Line}
    (h : line.inlineBlock? = some (parent, child)) :
    ∃ before after, line.content = before ++ ':' :: after ∧
      ':' ∉ outsideChars false before ∧ groupAfter false before = false ∧
      trim after ≠ [] ∧ [parent, child] = line.blockParts before after := by
  obtain ⟨start, hstart, hparts⟩ := Option.map_eq_some_iff.mp h
  rw [inlineBlockStart?, Option.filter_eq_some_iff, Option.map_eq_some_iff] at hstart
  obtain ⟨⟨colon, hfirst, rfl⟩, hrest⟩ := hstart
  obtain ⟨before, after, hcontent, rfl, hbefore, hgroup⟩ :=
    exists_of_firstOutside?_beq_eq_some (by decide) hfirst
  have hdrop : dropBytes (byteLength before + 1) line.content = after := by
    rw [hcontent]
    exact dropBytes_succ_append_cons after rfl
  have htake : takeBytes (byteLength before + 1) line.content = before ++ [':'] := by
    rw [hcontent]
    exact takeBytes_succ_append_cons after rfl
  rw [hdrop] at hrest
  rw [htake, hdrop, Prod.mk.injEq] at hparts
  obtain ⟨rfl, rfl⟩ := hparts
  exact ⟨before, after, hcontent, hbefore, hgroup, by simpa using hrest, rfl⟩

section Parts

variable {line parent child : Line} (h : line.inlineBlock? = some (parent, child))

include h

theorem separate_eq_pair : line.separate = [parent, child] := by rw [separate, h]

theorem level_parent : parent.level = line.level := by
  obtain ⟨before, after, -, -, -, -, hparts⟩ := exists_of_inlineBlock?_eq_some h
  obtain ⟨rfl, -⟩ := List.cons.inj hparts
  rfl

theorem level_child : child.level = nextLevel line.level := by
  obtain ⟨before, after, -, -, -, -, hparts⟩ := exists_of_inlineBlock?_eq_some h
  obtain ⟨-, hchild⟩ := List.cons.inj hparts
  rw [List.singleton_inj.mp hchild]

theorem level_child_of_hasRoom (hroom : line.HasRoom) : child.level = line.level + 1 := by
  rw [level_child h, nextLevel_of_lt (hroom (Option.isSome_of_eq_some h))]

end Parts

/-- The line's own part comes first, and nothing else but a child comes after it. -/
theorem separate_eq_cons (line : Line) :
    line.separate = line.ownPart :: (line.inlineBlock?.map (·.2)).toList := by
  rw [separate, ownPart]
  cases line.inlineBlock? with
  | none => rfl
  | some block => rfl

@[simp] theorem level_ownPart (line : Line) : line.ownPart.level = line.level := by
  rw [ownPart]
  cases hblock : line.inlineBlock? with
  | none => rfl
  | some block => exact level_parent hblock

/-- Everything that separating can do to a line. -/
theorem separate_cases (line : Line) :
    (inlineBlockStart? line.content = none ∧ line.separate = [line]) ∨
      ∃ before after, line.content = before ++ ':' :: after ∧
        ':' ∉ outsideChars false before ∧ groupAfter false before = false ∧
        trim after ≠ [] ∧ line.separate = line.blockParts before after := by
  cases hblock : line.inlineBlock? with
  | none =>
      refine .inl ⟨?_, by rw [separate, hblock]⟩
      exact Option.map_eq_none_iff.mp hblock
  | some block =>
      rw [separate_eq_pair hblock]
      exact .inr (exists_of_inlineBlock?_eq_some hblock)

theorem nonblank_flatMap_separate (line : Line) :
    nonblank (line.separate.flatMap Line.content) = nonblank line.content := by
  obtain ⟨-, hwhole⟩ | ⟨before, after, hcontent, -, -, -, hparts⟩ := line.separate_cases
  · rw [hwhole, List.flatMap_singleton]
  · rw [hparts, hcontent, blockParts, List.flatMap_cons, List.flatMap_singleton, nonblank_append,
      nonblank_trim, ← nonblank_append, List.append_assoc, List.singleton_append]

/-- The parent ends with its colon, and the child is trimmed. -/
theorem isContent_of_mem_separate {line part : Line} (h : IsContent line.content)
    (hpart : part ∈ line.separate) : IsContent part.content := by
  obtain ⟨-, hwhole⟩ | ⟨before, after, hcontent, -, -, hafter, hparts⟩ := line.separate_cases
  · rw [hwhole, List.mem_singleton] at hpart
    rwa [hpart]
  · have hfeed := h.no_lineFeed
    rw [hcontent, ← List.singleton_append, ← List.append_assoc, List.mem_append, not_or] at hfeed
    rw [hparts, blockParts, List.mem_cons, List.mem_singleton] at hpart
    rcases hpart with rfl | rfl
    · refine ⟨by simp, hfeed.1, (trim_eq_self_iff _).mpr ⟨?_, ?_⟩⟩
      · intro c hc
        apply h.isBlank_of_mem_head?
        rwa [hcontent, ← List.singleton_append, ← List.append_assoc,
          List.head?_append_of_ne_nil _ (by simp)]
      · intro c hc
        obtain rfl : ':' = c := by simpa using hc
        decide
    · exact isContent_trim hfeed.2 hafter

end Line

theorem separateBlocks_append (lines rest : List Line) :
    separateBlocks (lines ++ rest) = separateBlocks lines ++ separateBlocks rest :=
  List.flatMap_append

theorem nonblank_flatMap_separateBlocks (lines : List Line) :
    nonblank ((separateBlocks lines).flatMap Line.content) =
      nonblank (lines.flatMap Line.content) := by
  induction lines with
  | nil => rfl
  | cons line lines ih =>
      rw [separateBlocks_cons, List.flatMap_append, nonblank_append, ih,
        line.nonblank_flatMap_separate, ← nonblank_append, List.flatMap_cons]

end IndentMarkup
