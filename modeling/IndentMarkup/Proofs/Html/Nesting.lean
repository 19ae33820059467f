import IndentMarkup.Proofs.Html.Walk
import Mathlib.Data.List.Induction

/-!
Which lines enclose a line, read off the levels alone, and the scopes that the
walk has open. When a line is opened, the scopes that stay open are exactly
the lines that enclose it.
-/

namespace IndentMarkup

/-- The lines before a line that enclose it, outermost first: every line
after such a line is deeper than it, up to the enclosed line itself. -/
def Line.enclosing (line : Line) : List Line → List Line
  | [] => []
  | outer :: between =>
    if (between ++ [line]).all (outer.level < ·.level) then outer :: line.enclosing between
    else line.enclosing between

namespace Line

theorem level_lt_of_mem_enclosing {line outer : Line} {before : List Line}
    (h : outer ∈ line.enclosing before) : outer.level < line.level := by
  induction before with
  | nil => cases h
  | cons first between ih =>
      rw [enclosing] at h
      split at h
      case isTrue hall =>
        rcases List.mem_cons.mp h with rfl | h
        · simpa using List.all_eq_true.mp hall line (by simp)
        · exact ih h
      case isFalse => exact ih h

theorem mem_of_mem_enclosing {line outer : Line} {before : List Line}
    (h : outer ∈ line.enclosing before) : outer ∈ before := by
  induction before with
  | nil => cases h
  | cons first between ih =>
      rw [enclosing] at h
      split at h
      case isTrue =>
        rcases List.mem_cons.mp h with rfl | h
        · exact List.mem_cons_self
        · exact List.mem_cons_of_mem _ (ih h)
      case isFalse => exact List.mem_cons_of_mem _ (ih h)

theorem pairwise_enclosing (line : Line) (before : List Line) :
    (line.enclosing before).Pairwise (·.level < ·.level) := by
  induction before with
  | nil => exact List.Pairwise.nil
  | cons first between ih =>
      rw [enclosing]
      split
      case isTrue hall =>
        refine List.Pairwise.cons (fun inner hinner => ?_) ih
        have hmem := List.mem_append_left [line] (mem_of_mem_enclosing hinner)
        simpa using List.all_eq_true.mp hall inner hmem
      case isFalse => exact ih

/-- What encloses a line is what encloses the line before it and that line,
as far as it is less deep. -/
theorem enclosing_concat (line last : Line) (before : List Line) :
    line.enclosing (before ++ [last]) =
      (last.enclosing before ++ [last]).filter (·.level < line.level) := by
  induction before with
  | nil => by_cases h : last.level < line.level <;> simp [enclosing, h]
  | cons first between ih =>
      rw [List.cons_append, enclosing, enclosing, ih]
      simp only [List.all_append, List.all_cons, List.all_nil, Bool.and_true]
      -- Whether `first` encloses the lines depends on these three comparisons.
      cases hbetween : between.all (first.level < ·.level) <;>
        by_cases hlast : first.level < last.level <;>
        by_cases hline : first.level < line.level <;> simp [hlast, hline]

end Line

namespace Html

/-- The open scopes after the lines of a document, innermost first. -/
def stackAfter (lines : List Line) : List Scope := lines.foldl enter []

theorem stackAfter_concat (lines : List Line) (line : Line) :
    stackAfter (lines ++ [line]) = enter (stackAfter lines) line := by
  rw [stackAfter, List.foldl_append]
  rfl

theorem map_line_keptBy (line : Line) (stack : List Scope) :
    (keptBy line stack).map Scope.line =
      (stack.map Scope.line).dropWhile (line.level ≤ ·.level) := by
  rw [List.dropWhile_map]
  rfl

/-- Among lines of falling levels the shallower ones come last. -/
theorem dropWhile_eq_filter_of_pairwise {lines : List Line} (level : Nat)
    (h : lines.Pairwise (·.level > ·.level)) :
    lines.dropWhile (level ≤ ·.level) = lines.filter (·.level < level) := by
  induction h with
  | nil => rfl
  | @cons line lines hlevels _ ih =>
      by_cases hline : level ≤ line.level
      · simp [hline, ih]
      · -- From here on every line is shallower still.
        have hrest : ∀ other ∈ lines, other.level < level := fun other hother =>
          Nat.lt_trans (hlevels other hother) (Nat.not_le.mp hline)
        rw [List.dropWhile_cons_of_neg (by simpa using hline), List.filter_eq_self.mpr]
        simpa [Nat.not_le.mp hline] using hrest

/-- The scopes that a line leaves open are the lines that enclose it. -/
theorem map_line_keptBy_stackAfter (before : List Line) (line : Line) :
    (keptBy line (stackAfter before)).map Scope.line = (line.enclosing before).reverse := by
  induction before using List.reverseRecOn generalizing line with
  | nil => rfl
  | append_singleton before last ih =>
      have hpairwise : (last.enclosing before ++ [last]).Pairwise (·.level < ·.level) := by
        rw [List.pairwise_append]
        refine ⟨last.pairwise_enclosing before, List.pairwise_singleton _ _, ?_⟩
        intro outer houter other hother
        rw [List.mem_singleton.mp hother]
        exact Line.level_lt_of_mem_enclosing houter
      calc
        (keptBy line (stackAfter (before ++ [last]))).map Scope.line =
            (last :: (last.enclosing before).reverse).dropWhile (line.level ≤ ·.level) := by
          rw [stackAfter_concat, map_line_keptBy, map_line_enter, ih]
        _ = (last :: (last.enclosing before).reverse).filter (·.level < line.level) := by
          apply dropWhile_eq_filter_of_pairwise
          simpa using List.pairwise_reverse.mpr hpairwise
        _ = (line.enclosing (before ++ [last])).reverse := by
          rw [Line.enclosing_concat, ← List.filter_reverse]
          simp

end Html

end IndentMarkup
