import IndentMarkup.Proofs.InlineBlock.Position

/-!
Which lines enclose which once inline blocks are separated. The child of a
block is deeper than its parent, so it never stands in the way of what
encloses the parent. Main statement: one line encloses another exactly if
their own parts do, and the child of a block encloses what is more than one
level deeper than the line that fell apart. Behind the last level no deeper
one is left, so no line at that level may fall apart.
-/

namespace IndentMarkup

section Levels

theorem Line.level_le_of_mem_separate {line part : Line} (hroom : line.HasRoom)
    (h : part ∈ line.separate) : line.level ≤ part.level := by
  rw [line.separate_eq_cons, List.mem_cons, Option.mem_toList, Option.map_eq_some_iff] at h
  rcases h with rfl | ⟨block, hblock, rfl⟩
  · exact line.level_ownPart.ge
  · rw [Line.level_child_of_hasRoom hblock hroom]
    exact Nat.le_succ _

/-- Separating blocks makes no line shallower. -/
theorem forall_mem_separateBlocks_lt_level (level : Nat) {lines : List Line}
    (hroom : ∀ line ∈ lines, line.HasRoom) :
    (∀ part ∈ separateBlocks lines, level < part.level) ↔ ∀ line ∈ lines, level < line.level := by
  constructor
  · intro h line hline
    have hpart : line.ownPart ∈ separateBlocks lines :=
      List.mem_flatMap_of_mem hline (line.separate_eq_cons ▸ List.mem_cons_self)
    rw [← line.level_ownPart]
    exact h _ hpart
  · intro h part hpart
    obtain ⟨line, hline, hmem⟩ := List.mem_flatMap.mp hpart
    exact Nat.lt_of_lt_of_le (h line hline) (Line.level_le_of_mem_separate (hroom line hline) hmem)

/-- Every line behind the one at `i`, up to and including the one at `j`, is
deeper than `level`. -/
def DeeperThrough (level : Nat) (lines : List Line) (i j : Nat) : Prop :=
  ∀ k, i < k → k ≤ j → ∀ line ∈ lines[k]?, level < line.level

theorem deeperThrough_iff_forall_mem (level : Nat) (lines : List Line) (i j : Nat) :
    DeeperThrough level lines i j ↔
      ∀ line ∈ (lines.take (j + 1)).drop (i + 1), level < line.level := by
  constructor
  · intro h line hline
    obtain ⟨n, hn⟩ := List.mem_iff_getElem?.mp hline
    rw [List.getElem?_drop, List.getElem?_take] at hn
    split at hn
    case isTrue hle => exact h (i + 1 + n) (by omega) (by omega) line hn
    case isFalse => cases hn
  · intro h k hik hkj line hline
    apply h
    rw [List.mem_iff_getElem?]
    refine ⟨k - (i + 1), ?_⟩
    rw [List.getElem?_drop, Nat.add_sub_cancel' hik, List.getElem?_take_of_lt (by omega)]
    exact hline

instance (level : Nat) (lines : List Line) (i j : Nat) :
    Decidable (DeeperThrough level lines i j) :=
  decidable_of_iff _ (deeperThrough_iff_forall_mem level lines i j).symm

theorem deeperThrough_iff_and {level : Nat} {lines : List Line} {i j : Nat} {last : Line}
    (hij : i < j) (hlast : lines[j]? = some last) :
    DeeperThrough level lines i j ↔
      (∀ line ∈ (lines.take j).drop (i + 1), level < line.level) ∧ level < last.level := by
  have hlength : i + 1 ≤ (lines.take j).length := by
    have hj := (List.getElem?_eq_some_iff.mp hlast).1
    rw [List.length_take]
    omega
  rw [deeperThrough_iff_forall_mem, List.take_add_one, hlast, Option.toList_some,
    List.drop_append_of_le_length hlength, List.forall_mem_append, List.forall_mem_singleton]

/-- The line at `i` encloses the one at `j`: up to the latter every line behind it is deeper. -/
def Encloses (lines : List Line) (i j : Nat) : Prop :=
  i < j ∧ j < lines.length ∧ ∃ outer ∈ lines[i]?, DeeperThrough outer.level lines i j

instance (lines : List Line) (i j : Nat) : Decidable (Encloses lines i j) :=
  inferInstanceAs (Decidable (_ ∧ _ ∧ ∃ outer ∈ lines[i]?, DeeperThrough outer.level lines i j))

theorem encloses_iff_deeperThrough {lines : List Line} {i j : Nat} {outer : Line} (hij : i < j)
    (hj : j < lines.length) (houter : lines[i]? = some outer) :
    Encloses lines i j ↔ DeeperThrough outer.level lines i j := by
  simp [Encloses, hij, hj, houter]

end Levels

section Separated

variable {lines : List Line} {i j : Nat} {outer inner : Line}
  (hroom : ∀ line ∈ lines, line.HasRoom) (houter : lines[i]? = some outer)
  (hinner : lines[j]? = some inner) (hij : i < j)

include hroom houter hinner hij

theorem deeperThrough_separateBlocks (level : Nat) {n : Nat} (hn : n < outer.separate.length) :
    DeeperThrough level (separateBlocks lines) (ownPosition lines i + n) (ownPosition lines j) ↔
      (∀ part ∈ outer.separate.drop (n + 1), level < part.level) ∧
        DeeperThrough level lines i j := by
  have hbetween : ∀ line ∈ (lines.take j).drop (i + 1), line.HasRoom := fun line hline =>
    hroom line (List.mem_of_mem_take (List.mem_of_mem_drop hline))
  rw [deeperThrough_iff_and hij hinner, deeperThrough_iff_forall_mem, Nat.add_assoc,
    drop_take_separateBlocks houter hij hinner hn, List.forall_mem_append,
    List.forall_mem_append, forall_mem_separateBlocks_lt_level level hbetween,
    List.forall_mem_singleton, inner.level_ownPart, and_assoc]

/-- From one of its parts, a line encloses what it would enclose at the level
of that part, if its later parts are no obstacle. -/
theorem encloses_separateBlocks_iff {n : Nat} {part : Line} (hpart : outer.separate[n]? = some part)
    (hlater : ∀ later ∈ outer.separate.drop (n + 1), part.level < later.level) :
    Encloses (separateBlocks lines) (ownPosition lines i + n) (ownPosition lines j) ↔
      DeeperThrough part.level lines i j := by
  have hn := (List.getElem?_eq_some_iff.mp hpart).1
  have hle := ownPosition_add_length_le houter hij
  have hend := (List.getElem?_eq_some_iff.mp (getElem?_ownPosition hinner)).1
  rw [encloses_iff_deeperThrough (by omega) hend ((getElem?_separateBlocks houter hn).trans hpart),
    deeperThrough_separateBlocks hroom houter hinner hij _ hn]
  exact and_iff_right hlater

theorem encloses_ownPosition_iff :
    Encloses (separateBlocks lines) (ownPosition lines i) (ownPosition lines j) ↔
      Encloses lines i j := by
  have hpart : outer.separate[0]? = some outer.ownPart := by rw [outer.separate_eq_cons]; rfl
  have hlater : ∀ later ∈ outer.separate.drop (0 + 1), outer.ownPart.level < later.level := by
    rw [outer.separate_eq_cons]
    intro child hchild
    obtain ⟨block, hblock, rfl⟩ := Option.map_eq_some_iff.mp (Option.mem_toList.mp hchild)
    rw [outer.level_ownPart,
      Line.level_child_of_hasRoom hblock (hroom outer (List.mem_of_getElem? houter))]
    exact Nat.lt_succ_self _
  have hj := (List.getElem?_eq_some_iff.mp hinner).1
  rw [encloses_iff_deeperThrough hij hj houter, ← outer.level_ownPart]
  exact encloses_separateBlocks_iff hroom houter hinner hij hpart hlater

end Separated

section Block

variable {lines : List Line} {i : Nat} {line parent child : Line}
  (hroom : ∀ line ∈ lines, line.HasRoom) (hline : lines[i]? = some line)
  (hblock : line.inlineBlock? = some (parent, child))

include hroom hline hblock

theorem encloses_child :
    Encloses (separateBlocks lines) (ownPosition lines i) (ownPosition lines i + 1) := by
  have hchild := getElem?_child hline hblock
  rw [encloses_iff_deeperThrough (Nat.lt_succ_self _) (List.getElem?_eq_some_iff.mp hchild).1
    (getElem?_parent hline hblock)]
  intro k hik hkj other hother
  obtain rfl : k = ownPosition lines i + 1 := by omega
  obtain rfl := Option.some.inj (hchild.symm.trans hother)
  rw [Line.level_parent hblock,
    Line.level_child_of_hasRoom hblock (hroom line (List.mem_of_getElem? hline))]
  exact Nat.lt_succ_self _

theorem child_encloses_iff {j : Nat} {inner : Line} (hinner : lines[j]? = some inner)
    (hij : i < j) :
    Encloses (separateBlocks lines) (ownPosition lines i + 1) (ownPosition lines j) ↔
      DeeperThrough (line.level + 1) lines i j := by
  have hseparate := Line.separate_eq_pair hblock
  have hpart : line.separate[1]? = some child := by rw [hseparate]; rfl
  have hlater : ∀ later ∈ line.separate.drop (1 + 1), child.level < later.level := by
    rw [hseparate]
    exact fun _ hlater => absurd hlater List.not_mem_nil
  rw [encloses_separateBlocks_iff hroom hline hinner hij hpart hlater,
    Line.level_child_of_hasRoom hblock (hroom line (List.mem_of_getElem? hline))]

end Block

/-- A menu with blocks on two levels: a line at the level of the first child,
and below the second block lines that its child encloses and one that it does
not. -/
def blockMenu : List Line :=
  [{ level := 0, content := "nav: ul".toList }, { level := 1, content := "li one".toList },
   { level := 1, content := "li(x:y): a z".toList }, { level := 4, content := "b deep".toList },
   { level := 3, content := "i: u v".toList }, { level := 2, content := "p end".toList }]

/-- A block at the last level. -/
def brimmingMenu : List Line := [{ level := UInt64.size - 1, content := "ul: li".toList }]

end IndentMarkup
