import IndentMarkup.Proofs.InlineBlock

/-!
Where lines stand once inline blocks are separated. The own part of a line
comes behind the parts of the lines before it, and the child of its block
right behind that.
-/

namespace IndentMarkup

section Position

/-- The position of a line's own part in the separated document. -/
def ownPosition (lines : List Line) (i : Nat) : Nat := (separateBlocks (lines.take i)).length

variable {lines : List Line} {i : Nat} {line : Line} (h : lines[i]? = some line)

include h

theorem separateBlocks_eq_append :
    separateBlocks lines =
      separateBlocks (lines.take i) ++ (line.separate ++ separateBlocks (lines.drop (i + 1))) := by
  have hdrop : lines.drop i = line :: lines.drop (i + 1) := by
    rw [List.drop_eq_getElem?_toList_append, h]
    rfl
  rw [← separateBlocks_cons, ← hdrop, ← separateBlocks_append, List.take_append_drop]

/-- The parts of a line stand one behind the other from its own position on. -/
theorem getElem?_separateBlocks {n : Nat} (hn : n < line.separate.length) :
    (separateBlocks lines)[ownPosition lines i + n]? = line.separate[n]? := by
  rw [separateBlocks_eq_append h, ownPosition, List.getElem?_append_right (Nat.le_add_right _ _),
    Nat.add_sub_cancel_left, List.getElem?_append_left hn]

theorem getElem?_ownPosition :
    (separateBlocks lines)[ownPosition lines i]? = some line.ownPart := by
  have hpart := getElem?_separateBlocks h (n := 0) (by simp [line.separate_eq_cons])
  simpa [line.separate_eq_cons] using hpart

section Later

variable {j : Nat} (hij : i < j)

include hij

theorem separateBlocks_take_eq_append :
    separateBlocks (lines.take j) =
      separateBlocks (lines.take i) ++
        (line.separate ++ separateBlocks ((lines.take j).drop (i + 1))) := by
  have hline : (lines.take j)[i]? = some line := by rw [List.getElem?_take, if_pos hij, h]
  have hbefore : (lines.take j).take i = lines.take i := by
    rw [List.take_take, Nat.min_eq_left hij.le]
  rw [separateBlocks_eq_append hline, hbefore]

theorem ownPosition_add_length_le :
    ownPosition lines i + line.separate.length ≤ ownPosition lines j := by
  rw [ownPosition, ownPosition, separateBlocks_take_eq_append h hij, List.length_append,
    List.length_append, ← Nat.add_assoc]
  exact Nat.le_add_right _ _

/-- What the separated document holds from a part of one line up to the own
part of a later line. -/
theorem drop_take_separateBlocks {inner : Line} (hinner : lines[j]? = some inner) {n : Nat}
    (hn : n ≤ line.separate.length) :
    ((separateBlocks lines).take (ownPosition lines j + 1)).drop (ownPosition lines i + n) =
      line.separate.drop n ++ separateBlocks ((lines.take j).drop (i + 1)) ++ [inner.ownPart] := by
  have htake : (separateBlocks lines).take (ownPosition lines j + 1) =
      separateBlocks (lines.take j) ++ [inner.ownPart] := by
    rw [separateBlocks_eq_append hinner, ownPosition, List.take_length_add_append,
      inner.separate_eq_cons]
    rfl
  rw [htake, separateBlocks_take_eq_append h hij, List.append_assoc, ownPosition,
    List.drop_length_add_append, List.append_assoc, List.drop_append_of_le_length hn,
    List.append_assoc]

end Later

section Block

variable {parent child : Line} (hblock : line.inlineBlock? = some (parent, child))

include hblock

theorem getElem?_parent : (separateBlocks lines)[ownPosition lines i]? = some parent := by
  rw [getElem?_ownPosition h, Line.ownPart, hblock]
  rfl

theorem getElem?_child : (separateBlocks lines)[ownPosition lines i + 1]? = some child := by
  have hseparate := Line.separate_eq_pair hblock
  rw [getElem?_separateBlocks h (by rw [hseparate]; exact Nat.one_lt_two), hseparate]
  rfl

end Block

end Position

end IndentMarkup
