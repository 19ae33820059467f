import IndentMarkup.Proofs.Canonical.Levels
import IndentMarkup.Proofs.Depth
import IndentMarkup.Proofs.InlineBlock.Position

/-!
Depth jumps once inline blocks are separated. The child of a block stands one
level below its parent, so it never jumps, and the next line may go one level
deeper than it could behind the line that fell apart. Main statement: the
jumps are the lines that are too deep by this measure, and the findings about
a document name exactly these. Levels are machine words, so this holds behind
a line only if there is a level below its last part. That is so for every line
of a document, and for all lines of a list that holds no jump.
-/

namespace IndentMarkup

section Previous

/-- Each line with the one before it; the first one comes after `previous`. -/
def withPrevious (previous : Option Line) : List Line → List (Option Line × Line)
  | [] => []
  | line :: rest => (previous, line) :: withPrevious (some line) rest

theorem getElem?_withPrevious (previous : Option Line) (lines : List Line) (i : Nat) :
    (withPrevious previous lines)[i]? =
      lines[i]?.map fun line => ((lines.take i).getLast?.or previous, line) := by
  induction lines generalizing previous i with
  | nil => rfl
  | cons line lines ih =>
      cases i with
      | zero => rfl
      | succ i =>
          rw [withPrevious, List.getElem?_cons_succ, List.getElem?_cons_succ, ih,
            List.take_succ_cons, List.getLast?_cons]
          cases (lines.take i).getLast? <;> rfl

/-- The jump of a line behind the one before it. -/
def jumpBehind? (pair : Option Line × Line) : Option DepthJump :=
  jumpAfter? (pair.1.map Line.level) pair.2

/-- The jump that the line at a position makes. -/
def jumpAt? (lines : List Line) (i : Nat) : Option DepthJump :=
  (withPrevious none lines)[i]?.bind jumpBehind?

theorem jumpsAfter_eq_filterMap (previous : Option Line) (lines : List Line) :
    jumpsAfter (previous.map Line.level) lines =
      (withPrevious previous lines).filterMap jumpBehind? := by
  induction lines generalizing previous with
  | nil => rfl
  | cons line lines ih =>
      have hrest := ih (some line)
      rw [Option.map_some] at hrest
      rw [jumpsAfter, hrest, withPrevious, List.filterMap_cons, jumpBehind?]
      cases jumpAfter? (previous.map Line.level) line <;> rfl

end Previous

section Overreach

/-- The level of the last part of a line: its own level, or the one below for
the child of its block. -/
def Line.endLevel (line : Line) : Nat :=
  if line.inlineBlock?.isSome then line.level + 1 else line.level

/-- Whether there is a level below the last part of a line. -/
def Line.CanBeFollowed (line : Line) : Prop := line.endLevel + 1 < UInt64.size

instance (line : Line) : Decidable line.CanBeFollowed :=
  inferInstanceAs (Decidable (line.endLevel + 1 < UInt64.size))

theorem Line.CanBeFollowed.hasRoom {line : Line} (h : line.CanBeFollowed) : line.HasRoom := by
  intro hblock
  rw [CanBeFollowed, endLevel, if_pos hblock] at h
  exact Nat.lt_of_succ_lt h

theorem Line.level_le_endLevel (line : Line) : line.level ≤ line.endLevel := by
  rw [endLevel]
  split
  case isTrue => exact Nat.le_succ _
  case isFalse => exact Nat.le_refl _

theorem Line.endLevel_le (line : Line) : line.endLevel ≤ line.level + 1 := by
  rw [endLevel]
  split
  case isTrue => exact Nat.le_refl _
  case isFalse => exact Nat.le_succ _

/-- A line that is too deep for the one before it. The first line may not be
indented, and any other may be one level below the line before it, or two
levels if that holds an inline block. -/
def Overreaches : Option Line → Line → Prop
  | none, line => 0 < line.level
  | some previous, line =>
    if previous.inlineBlock?.isSome then previous.level + 2 < line.level
    else previous.level + 1 < line.level

theorem overreaches_iff (previous : Option Line) (line : Line) :
    Overreaches previous line ↔ allowedLevel (previous.map Line.endLevel) < line.level := by
  cases previous with
  | none => rfl
  | some previous =>
      simp only [Overreaches, allowedLevel, Line.endLevel, Option.map_some, Option.elim_some]
      split <;> rfl

instance (previous : Option Line) (line : Line) : Decidable (Overreaches previous line) :=
  decidable_of_iff _ (overreaches_iff previous line).symm

/-- What is said about a line that overreaches. -/
def jumpOver (pair : Option Line × Line) : DepthJump :=
  ⟨(pair.1.map Line.endLevel).getD 0, pair.2.level, pair.2.ownPart.content⟩

/-- A line whose own part stands behind the last part of another jumps if it overreaches. -/
theorem jumpAfter?_ownPart (previous : Option Line) (line : Line) :
    jumpAfter? (previous.map Line.endLevel) line.ownPart =
      if Overreaches previous line then some (jumpOver (previous, line)) else none := by
  rw [jumpAfter?_eq, line.level_ownPart]
  exact if_congr (overreaches_iff previous line).symm rfl rfl

theorem jumpAfter?_child {line parent child : Line}
    (h : line.inlineBlock? = some (parent, child)) :
    jumpAfter? (some parent.level) child = none := by
  have hle : child.level ≤ allowedLevel (some parent.level) := by
    rw [Line.level_child h, Line.level_parent h]
    exact Nat.mod_le _ _
  rw [jumpAfter?_eq, if_neg (Nat.not_lt.mpr hle)]

end Overreach

section Walk

/-- Between the parts of a line nothing jumps. -/
theorem jumpsAfter_separate_append (previous : Option Nat) {line : Line} (hroom : line.HasRoom)
    (rest : List Line) :
    jumpsAfter previous (line.separate ++ rest) =
      (jumpAfter? previous line.ownPart).toList ++ jumpsAfter (some line.endLevel) rest := by
  rw [line.separate_eq_cons, Line.endLevel]
  cases hblock : line.inlineBlock? with
  | none => simp [jumpsAfter]
  | some block =>
      have hchild := jumpAfter?_child hblock
      rw [Line.level_parent hblock] at hchild
      simp [jumpsAfter, hchild, Line.level_child_of_hasRoom hblock hroom]

theorem jumpsAfter_separateBlocks (previous : Option Line) {lines : List Line}
    (hroom : ∀ line ∈ lines, line.HasRoom) :
    jumpsAfter (previous.map Line.endLevel) (separateBlocks lines) =
      ((withPrevious previous lines).filter fun pair =>
        Overreaches pair.1 pair.2).map jumpOver := by
  induction lines generalizing previous with
  | nil => rfl
  | cons line lines ih =>
      rw [List.forall_mem_cons] at hroom
      have hrest := ih (some line) hroom.2
      rw [Option.map_some] at hrest
      rw [separateBlocks_cons, jumpsAfter_separate_append _ hroom.1, hrest, jumpAfter?_ownPart,
        withPrevious, List.filter_cons]
      by_cases hjump : Overreaches previous line <;> simp [hjump]

/-- Without a jump, levels grow by one from line to line. -/
theorem level_lt_of_jumpsAfter_eq_nil {previous : Option Nat} {lines : List Line}
    (h : jumpsAfter previous lines = []) :
    ∀ line ∈ lines, line.level < allowedLevel previous + lines.length := by
  induction lines generalizing previous with
  | nil => simp
  | cons first lines ih =>
      rw [jumpsAfter, List.append_eq_nil_iff, Option.toList_eq_nil_iff, jumpAfter?_eq] at h
      obtain ⟨hfirst, hrest⟩ := h
      have hle : first.level ≤ allowedLevel previous := by
        by_contra hlt
        rw [if_pos (Nat.not_le.mp hlt)] at hfirst
        cases hfirst
      rw [List.forall_mem_cons, List.length_cons]
      refine ⟨by omega, fun line hline => ?_⟩
      have hlt : line.level < first.level + 1 + lines.length := ih hrest line hline
      omega

theorem refuseJumps_eq_ok_iff_jumpsAfter (lines : List Line) :
    refuseJumps lines = .ok () ↔ jumpsAfter none lines = [] := by
  rw [refuseJumps, refuseJumpsAfter_eq]
  cases jumpsAfter none lines <;> simp

/-- What overreaches jumps before blocks are separated as well. -/
theorem jumpBehind?_ne_none {pair : Option Line × Line} (h : Overreaches pair.1 pair.2) :
    jumpBehind? pair ≠ none := by
  obtain ⟨previous, line⟩ := pair
  have hend :
      allowedLevel (previous.map Line.level) ≤ allowedLevel (previous.map Line.endLevel) := by
    cases previous with
    | none => exact Nat.le_refl _
    | some previous => exact Nat.succ_le_succ previous.level_le_endLevel
  have hjump := Nat.lt_of_le_of_lt hend ((overreaches_iff previous line).mp h)
  rw [jumpBehind?, jumpAfter?_eq, if_pos hjump]
  exact Option.some_ne_none _

/-- A list that memory can hold is too short to reach the last level without a jump. -/
theorem refuseJumps_separateBlocks {lines : List Line} (hlength : lines.length < UInt64.size)
    (h : refuseJumps lines = .ok ()) : refuseJumps (separateBlocks lines) = .ok () := by
  have hjumps := (refuseJumps_eq_ok_iff_jumpsAfter lines).mp h
  have hroom : ∀ line ∈ lines, line.HasRoom := by
    intro line hline _
    have hlt : line.level < 0 + lines.length := level_lt_of_jumpsAfter_eq_nil hjumps line hline
    omega
  have hpairs : jumpsAfter none lines = (withPrevious none lines).filterMap jumpBehind? :=
    jumpsAfter_eq_filterMap none lines
  have hseparate : jumpsAfter none (separateBlocks lines) =
      ((withPrevious none lines).filter fun pair => Overreaches pair.1 pair.2).map jumpOver :=
    jumpsAfter_separateBlocks none hroom
  rw [hpairs, List.filterMap_eq_nil_iff] at hjumps
  rw [refuseJumps_eq_ok_iff_jumpsAfter, hseparate, List.map_eq_nil_iff, List.filter_eq_nil_iff]
  intro pair hpair hover
  exact jumpBehind?_ne_none (of_decide_eq_true hover) (hjumps pair hpair)

end Walk

section Position

theorem getLast?_separate {line : Line} (hroom : line.HasRoom) :
    line.separate.getLast?.map Line.level = some line.endLevel := by
  rw [line.separate_eq_cons, Line.endLevel]
  cases hblock : line.inlineBlock? with
  | none => simp
  | some block => simp [Line.level_child_of_hasRoom hblock hroom]

theorem getLast?_separateBlocks {lines : List Line}
    (hroom : ∀ last ∈ lines.getLast?, last.HasRoom) :
    (separateBlocks lines).getLast?.map Line.level = lines.getLast?.map Line.endLevel := by
  cases lines using List.reverseRecOn with
  | nil => rfl
  | append_singleton lines last =>
      have hlast : last.separate ≠ [] := by simp [last.separate_eq_cons]
      rw [separateBlocks_append, separateBlocks_cons, separateBlocks_nil, List.append_nil,
        List.getLast?_append_of_ne_nil _ hlast,
        getLast?_separate (hroom last List.getLast?_concat), List.getLast?_concat, Option.map_some]

variable {lines : List Line} {i : Nat} {line : Line} (h : lines[i]? = some line)

include h

theorem take_ownPosition :
    (separateBlocks lines).take (ownPosition lines i) = separateBlocks (lines.take i) := by
  rw [separateBlocks_eq_append h, ownPosition, List.take_left]

/-- The line before a line's own part is the last part of the line before it. -/
theorem jumpAt?_ownPosition (hroom : ∀ last ∈ (lines.take i).getLast?, last.HasRoom) :
    jumpAt? (separateBlocks lines) (ownPosition lines i) =
      jumpAfter? ((lines.take i).getLast?.map Line.endLevel) line.ownPart := by
  rw [jumpAt?, getElem?_withPrevious, getElem?_ownPosition h, take_ownPosition h, Option.or_none,
    ← getLast?_separateBlocks hroom]
  rfl

theorem jumpAt?_child {parent child : Line} (hblock : line.inlineBlock? = some (parent, child)) :
    jumpAt? (separateBlocks lines) (ownPosition lines i + 1) = none := by
  have htake : (separateBlocks lines).take (ownPosition lines i + 1) =
      separateBlocks (lines.take i) ++ [parent] := by
    rw [List.take_add_one, take_ownPosition h, getElem?_parent h hblock]
    rfl
  rw [jumpAt?, getElem?_withPrevious, getElem?_child h hblock, htake, List.getLast?_concat]
  exact jumpAfter?_child hblock

end Position

section Outline

variable {canonical : Text}

/-- A leading tab takes a byte. -/
theorem level_le_of_mem_outline {line : Line} (h : line ∈ outline canonical) :
    line.level ≤ Text.byteLength canonical := by
  rw [outline_eq_filterMap_pieces] at h
  obtain ⟨piece, hpiece, hline⟩ := List.mem_filterMap.mp h
  obtain ⟨-, rfl⟩ := (Line.ofText?_eq_some_iff piece line).mp hline
  calc
    Text.countLeading '\t' piece ≤ piece.length := (List.takeWhile_sublist _).length_le
    _ ≤ Text.byteLength piece := Text.length_le_byteLength piece
    _ ≤ Text.byteLength canonical := Text.byteLength_le_of_mem_pieces hpiece

theorem canBeFollowed_of_mem_outline (hlength : Text.byteLength canonical ≤ Text.maxLength)
    {line : Line} (h : line ∈ outline canonical) : line.CanBeFollowed := by
  have hmax : Text.maxLength + 3 < UInt64.size := by decide
  have hlevel := level_le_of_mem_outline h
  have hend := line.endLevel_le
  rw [Line.CanBeFollowed]
  omega

theorem Document.filter_isJump_diagnostics_parse
    (hlength : Text.byteLength canonical ≤ Text.maxLength) :
    (parse canonical).diagnostics.filter Diagnostic.isJump =
      ((withPrevious none (outline canonical)).filter fun pair => Overreaches pair.1 pair.2).map
        fun pair => .depthJump (jumpOver pair) := by
  have hjumps : jumpsAfter none (separateBlocks (outline canonical)) = _ :=
    jumpsAfter_separateBlocks none fun _ hline =>
      (canBeFollowed_of_mem_outline hlength hline).hasRoom
  rw [parse, ofLines, filter_diagnosticsAfter, hjumps, List.map_map]
  rfl

end Outline

/-- Blocks before a line two levels deeper and one three levels deeper. -/
def steepMenu : Text := "nav: ul\n\t\tli one\n\t\t\tb: i z\n\t\t\t\t\t\tu deep".toList

/-- A block and a line beside its child. -/
def evenMenu : List Line :=
  [{ level := 0, content := "ul: li x".toList }, { level := 1, content := "li y".toList }]

/-- A block at the last level, and a line that is two levels deep. -/
def overflowingMenu : List Line :=
  [{ level := UInt64.size - 1, content := "ul: li".toList }, { level := 2, content := "p".toList }]

end IndentMarkup
