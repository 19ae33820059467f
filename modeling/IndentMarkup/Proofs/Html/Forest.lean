import IndentMarkup.Proofs.Html.Walk
import Mathlib.Data.List.TakeWhile

/-!
The forest that a flat list of lines denotes, with its recursive printer. The
lines below a line are the maximal run of deeper lines after it, at whatever
levels they stand. Main statement: the text written by walking the lines with
a stack of open scopes is the printed forest.
-/

namespace IndentMarkup

/-- The line of the first tree and its children, then the trees after it. -/
inductive Forest
  | empty
  | tree (line : Line) (children siblings : Forest)
  deriving DecidableEq, Repr

namespace Forest

/-- The run of following lines that are deeper than a line. -/
def descendants (line : Line) (rest : List Line) : List Line :=
  rest.takeWhile (line.level < ·.level)

def following (line : Line) (rest : List Line) : List Line :=
  rest.dropWhile (line.level < ·.level)

def ofLines : List Line → Forest
  | [] => empty
  | line :: rest => tree line (ofLines (descendants line rest)) (ofLines (following line rest))
  termination_by lines => lines.length
  decreasing_by
    · exact Nat.lt_succ_of_le (List.takeWhile_sublist _).length_le
    · exact Nat.lt_succ_of_le (List.dropWhile_sublist _).length_le

def isEmpty : Forest → Bool
  | empty => true
  | tree _ _ _ => false

def startTag (name : Text) (attrs : Attributes) : Text :=
  '<' :: name ++ attrs.toList.flatMap Html.attributeText ++ ['>']

def endTag (name : Text) : Text := "</".toList ++ name ++ ['>']

/-- One tree: its line around what its children print. An element without
children stands on one output line. Text has no end, so its children just come
after it. -/
def treeText (unit : Text) (line : Line) (leaf : Bool) (inner : Text) : Text :=
  let pad := (List.replicate line.level unit).flatten
  match line.tag with
  | .text => pad ++ line.content ++ ['\n'] ++ inner
  | .element name =>
    let opened := pad ++ startTag name line.attrs ++ line.body
    if leaf then opened ++ endTag name ++ ['\n']
    else opened ++ ['\n'] ++ inner ++ pad ++ endTag name ++ ['\n']

def print (unit : Text) : Forest → Text
  | empty => []
  | tree line children siblings =>
    treeText unit line children.isEmpty (print unit children) ++ print unit siblings

@[simp] theorem ofLines_nil : ofLines [] = empty := by rw [ofLines]

theorem ofLines_cons (line : Line) (rest : List Line) :
    ofLines (line :: rest) =
      tree line (ofLines (descendants line rest)) (ofLines (following line rest)) := by
  rw [ofLines]

theorem isEmpty_ofLines (lines : List Line) : (ofLines lines).isEmpty = lines.isEmpty := by
  cases lines with
  | nil => rw [ofLines_nil]; rfl
  | cons line rest => rw [ofLines_cons]; rfl

theorem descendants_append_following (line : Line) (rest : List Line) :
    descendants line rest ++ following line rest = rest :=
  List.takeWhile_append_dropWhile

theorem level_lt_of_mem_descendants {line other : Line} {rest : List Line}
    (h : other ∈ descendants line rest) : line.level < other.level := by
  simpa using List.mem_takeWhile_imp h

theorem level_le_of_mem_head?_following {line other : Line} {rest : List Line}
    (h : other ∈ (following line rest).head?) : other.level ≤ line.level := by
  have hfail := List.head?_dropWhile_not (line.level < ·.level) rest
  rw [following] at h
  rw [Option.mem_def.mp h] at hfail
  simpa using hfail

end Forest

namespace Html

open Forest

theorem walk_leaf {line : Line} {rest : List Line}
    (h : ∀ other ∈ rest.head?, other.level ≤ line.level) :
    walk [] (line :: rest) = .start line :: .finish (Scope.ofLine line) :: walk [] rest := by
  have hclosed : ∀ other ∈ rest.head?, ∀ scope ∈ [Scope.ofLine line],
      other.level ≤ scope.line.level := by
    intro other hother scope hscope
    rw [List.mem_singleton.mp hscope]
    exact h other hother
  have hwalk := walk_append_of_closed [] hclosed
  rw [List.append_nil] at hwalk
  simp [walk, closedBy, keptBy, enter, settle, lineEnd, hwalk]

/-- The first child ends the output line of its parent's start tag, and from
then on the parent is settled. -/
theorem walk_first_child {line child : Line} (rest : List Line) (h : line.level < child.level) :
    walk [Scope.ofLine line] (child :: rest) =
      lineEnd [Scope.ofLine line] ++ walk [⟨line, false⟩] (child :: rest) := by
  have hlevel : ¬child.level ≤ line.level := Nat.not_le.mpr h
  simp [walk, closedBy, keptBy, enter, settle, lineEnd, Scope.ofLine, hlevel]

theorem walk_parent {line child : Line} {block rest : List Line}
    (hblock : ∀ other ∈ child :: block, line.level < other.level)
    (hrest : ∀ other ∈ rest.head?, other.level ≤ line.level) :
    walk [] (line :: (child :: block ++ rest)) =
      .start line :: (lineEnd [Scope.ofLine line] ++
        (walk [] (child :: block) ++ .finish ⟨line, false⟩ :: walk [] rest)) := by
  have hstart : walk [] (line :: (child :: block ++ rest)) =
      .start line :: walk [Scope.ofLine line] (child :: block ++ rest) := by
    simp [walk, closedBy, keptBy, enter, settle, lineEnd]
  have hdescend : walk [⟨line, false⟩] (child :: block ++ rest) =
      walk [] (child :: block) ++ walk [⟨line, false⟩] rest :=
    walk_descendants [] [] (child :: block) rest rfl (by simp) hblock hrest
  have hfinish : walk [⟨line, false⟩] rest = .finish ⟨line, false⟩ :: walk [] rest := by
    have hclosed : ∀ next ∈ rest.head?, ∀ scope ∈ [Scope.mk line false],
        next.level ≤ scope.line.level := by
      simpa using hrest
    simpa using walk_append_of_closed [] hclosed
  have hfirst := walk_first_child (block ++ rest) (hblock child (by simp))
  rw [← List.cons_append] at hfirst
  rw [hstart, hfirst, hdescend, hfinish]

/-- Walking a line with what follows it: the line, its descendants as a
document of their own, its end, and then the lines after them. -/
theorem walk_cons (line : Line) (rest : List Line) :
    walk [] (line :: rest) =
      .start line ::
        (if (descendants line rest).isEmpty then [.finish (Scope.ofLine line)]
          else lineEnd [Scope.ofLine line] ++ walk [] (descendants line rest) ++
            [.finish ⟨line, false⟩]) ++
      walk [] (following line rest) := by
  have hfollowing : ∀ other ∈ (following line rest).head?, other.level ≤ line.level :=
    fun other => level_le_of_mem_head?_following
  have hsplit := descendants_append_following line rest
  cases hblock : descendants line rest with
  | nil =>
      -- The next line is not deeper, so it closes this one at once.
      rw [hblock, List.nil_append] at hsplit
      rw [hsplit] at hfollowing
      simp [walk_leaf hfollowing, hsplit]
  | cons child block =>
      have hdeeper : ∀ other ∈ child :: block, line.level < other.level := by
        intro other hother
        rw [← hblock] at hother
        exact level_lt_of_mem_descendants hother
      rw [hblock] at hsplit
      -- Only the left side is about `rest`; the right one is about its two parts.
      conv => lhs; rw [← hsplit]
      rw [walk_parent hdeeper hfollowing]
      simp

theorem startText_append_finishText (indent : Indent) (line : Line) :
    startText indent line ++ finishText indent (Scope.ofLine line) =
      treeText indent.unit line true [] := by
  cases h : line.tag with
  | text =>
      simp [startText, finishText, treeText, Scope.ofLine, h, indentation_eq_replicate_unit]
  | element name =>
      simp [startText, finishText, treeText, startTag, endTag, Scope.ofLine, h,
        indentation_eq_replicate_unit]

theorem startText_append_inner_append_finishText (indent : Indent) (line : Line) (inner : Text) :
    startText indent line ++ (lineEnd [Scope.ofLine line]).flatMap (Move.text indent) ++ inner ++
        finishText indent ⟨line, false⟩ =
      treeText indent.unit line false inner := by
  cases h : line.tag with
  | text =>
      simp [startText, finishText, treeText, lineEnd, Scope.ofLine, h,
        indentation_eq_replicate_unit]
  | element name =>
      simp [startText, finishText, treeText, startTag, endTag, lineEnd, Scope.ofLine, h,
        Move.text, indentation_eq_replicate_unit]

end Html

end IndentMarkup
