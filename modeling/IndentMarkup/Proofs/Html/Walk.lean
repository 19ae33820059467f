import IndentMarkup.Html

/-!
The walk over a list of lines. Moves of lines that stand deeper than the
innermost scope of a settled stack do not depend on that stack, so a walk
falls apart into the walk of a line's descendants and the walk of what
follows them.
-/

namespace IndentMarkup.Html

/-- The text that stands once for every level. -/
def Indent.unit (indent : Indent) : Text :=
  (List.replicate indent.times indent.text).flatten

/-- Every text is the indent of some options. -/
theorem unit_of_text (text : Text) : Indent.unit { text } = text := by
  simp [Indent.unit]

theorem indentation_eq_replicate_unit (indent : Indent) (level : Nat) :
    indentation indent level = (List.replicate level indent.unit).flatten := by
  induction level with
  | zero => simp [indentation]
  | succ level ih =>
      rw [List.replicate_succ, List.flatten_cons, ← ih]
      rw [indentation, indentation, Indent.unit, Nat.succ_mul, Nat.add_comm,
        ← List.replicate_append_replicate, List.flatten_append]

@[simp] theorem closedBy_append_keptBy (line : Line) (stack : List Scope) :
    closedBy line stack ++ keptBy line stack = stack :=
  List.takeWhile_append_dropWhile

theorem closedBy_append_of_closed {line : Line} {closed : List Scope} (below : List Scope)
    (h : ∀ scope ∈ closed, line.level ≤ scope.line.level) :
    closedBy line (closed ++ below) = closed ++ closedBy line below :=
  List.takeWhile_append_of_pos fun scope hscope => decide_eq_true (h scope hscope)

theorem keptBy_append_of_closed {line : Line} {closed : List Scope} (below : List Scope)
    (h : ∀ scope ∈ closed, line.level ≤ scope.line.level) :
    keptBy line (closed ++ below) = keptBy line below :=
  List.dropWhile_append_of_pos fun scope hscope => decide_eq_true (h scope hscope)

/-- A line closes nothing at or below a scope that stands higher than it. -/
theorem closedBy_append_of_lt {line : Line} {parent : Scope} (stack below : List Scope)
    (h : parent.line.level < line.level) :
    closedBy line (stack ++ parent :: below) = closedBy line stack := by
  induction stack with
  | nil => simp [closedBy, Nat.not_le.mpr h]
  | cons scope stack ih =>
      by_cases hs : line.level ≤ scope.line.level
      · simpa [closedBy, hs] using ih
      · simp [closedBy, hs]

theorem keptBy_append_of_lt {line : Line} {parent : Scope} (stack below : List Scope)
    (h : parent.line.level < line.level) :
    keptBy line (stack ++ parent :: below) = keptBy line stack ++ parent :: below := by
  induction stack with
  | nil => simp [keptBy, Nat.not_le.mpr h]
  | cons scope stack ih =>
      by_cases hs : line.level ≤ scope.line.level
      · simpa [keptBy, hs] using ih
      · simp [keptBy, hs]

/-- Nothing happens to a scope whose output line has ended when it gets a child. -/
theorem settle_append_of_settled {parent : Scope} (stack below : List Scope)
    (h : parent.pending = false) :
    settle (stack ++ parent :: below) = settle stack ++ parent :: below := by
  cases stack with
  | nil => cases parent; simp_all [settle]
  | cons scope stack => rfl

theorem lineEnd_append_of_settled {parent : Scope} (stack below : List Scope)
    (h : parent.pending = false) :
    lineEnd (stack ++ parent :: below) = lineEnd stack := by
  cases stack with
  | nil => simp [lineEnd, h]
  | cons scope stack => rfl

@[simp] theorem map_line_settle (stack : List Scope) :
    (settle stack).map Scope.line = stack.map Scope.line := by
  cases stack <;> rfl

theorem map_line_enter (stack : List Scope) (line : Line) :
    (enter stack line).map Scope.line = line :: (keptBy line stack).map Scope.line := by
  simp [enter, Scope.ofLine]

/-- No line is open after a line but the line itself and what was open before. -/
theorem forall_mem_enter {P : Line → Prop} {stack : List Scope} {line : Line} (hline : P line)
    (hstack : ∀ scope ∈ stack, P scope.line) : ∀ scope ∈ enter stack line, P scope.line := by
  intro scope hscope
  have hmap : scope.line ∈ (enter stack line).map Scope.line := List.mem_map_of_mem hscope
  rw [map_line_enter, List.mem_cons, List.mem_map] at hmap
  rcases hmap with heq | ⟨before, hkept, heq⟩
  · rw [heq]
    exact hline
  · rw [← heq]
    exact hstack before ((List.dropWhile_sublist _).subset hkept)

/-- The next line closes every scope that is at least as deep, so these scopes
are finished first. -/
theorem walk_append_of_closed {closed : List Scope} (below : List Scope) {rest : List Line}
    (h : ∀ line ∈ rest.head?, ∀ scope ∈ closed, line.level ≤ scope.line.level) :
    walk (closed ++ below) rest = closed.map .finish ++ walk below rest := by
  cases rest with
  | nil => simp [walk]
  | cons line rest =>
      have hline := h line (by simp)
      simp only [walk, enter, closedBy_append_of_closed below hline,
        keptBy_append_of_closed below hline, List.map_append, List.append_assoc]

/-- The descendants of a settled scope are walked as if they were a document
of their own; afterwards the walk goes on at the scope. -/
theorem walk_descendants {parent : Scope} (stack below : List Scope) (block rest : List Line)
    (hparent : parent.pending = false)
    (hstack : ∀ scope ∈ stack, parent.line.level < scope.line.level)
    (hblock : ∀ line ∈ block, parent.line.level < line.level)
    (hrest : ∀ line ∈ rest.head?, line.level ≤ parent.line.level) :
    walk (stack ++ parent :: below) (block ++ rest) =
      walk stack block ++ walk (parent :: below) rest := by
  -- While the block is walked the stack changes above the parent only.
  induction block generalizing stack with
  | nil =>
      have hclosed : ∀ line ∈ rest.head?, ∀ scope ∈ stack, line.level ≤ scope.line.level :=
        fun line hline scope hscope =>
          Nat.le_trans (hrest line hline) (Nat.le_of_lt (hstack scope hscope))
      simpa [walk] using walk_append_of_closed (parent :: below) hclosed
  | cons line block ih =>
      have hline : parent.line.level < line.level := hblock line (by simp)
      have henter : enter (stack ++ parent :: below) line =
          enter stack line ++ parent :: below := by
        rw [enter, keptBy_append_of_lt stack below hline, settle_append_of_settled _ below hparent]
        rfl
      have hdeeper : ∀ scope ∈ enter stack line, parent.line.level < scope.line.level :=
        forall_mem_enter (P := (parent.line.level < ·.level)) hline hstack
      simp only [List.cons_append, walk]
      rw [henter, ih _ hdeeper fun other h => hblock other (by simp [h]),
        closedBy_append_of_lt stack below hline, keptBy_append_of_lt stack below hline,
        lineEnd_append_of_settled _ below hparent]
      simp

/-- The line that a move is about. -/
def Move.line? : Move → Option Line
  | start line => some line
  | endLine => none
  | finish scope => some scope.line

theorem eq_endLine_of_mem_lineEnd {stack : List Scope} {move : Move} (h : move ∈ lineEnd stack) :
    move = .endLine := by
  cases stack with
  | nil => cases h
  | cons parent below =>
      rw [lineEnd] at h
      split at h
      · exact List.mem_singleton.mp h
      · cases h

/-- A walk is about the lines that are open and the lines that it is given. -/
theorem forall_line?_walk {P : Line → Prop} {stack : List Scope} {lines : List Line}
    (hstack : ∀ scope ∈ stack, P scope.line) (hlines : ∀ line ∈ lines, P line) :
    ∀ move ∈ walk stack lines, ∀ line ∈ move.line?, P line := by
  have hfinish : ∀ closed : List Scope, (∀ scope ∈ closed, P scope.line) →
      ∀ move ∈ closed.map Move.finish, ∀ line ∈ move.line?, P line := by
    intro closed hclosed move hmove line hline
    obtain ⟨scope, hscope, rfl⟩ := List.mem_map.mp hmove
    obtain rfl : scope.line = line := Option.some.inj hline
    exact hclosed scope hscope
  induction lines generalizing stack with
  | nil => exact hfinish stack hstack
  | cons first rest ih =>
      have hfirst : P first := hlines first List.mem_cons_self
      have henter := forall_mem_enter hfirst hstack
      intro move hmove line hline
      simp only [walk, List.mem_append, List.mem_cons] at hmove
      -- What the line closes, the end of its parent's output line, its own
      -- start, and the rest of the walk.
      rcases hmove with (hclosed | hend) | rfl | hrest
      · have hsub : closedBy first stack ⊆ stack := (List.takeWhile_sublist _).subset
        exact hfinish _ (fun scope hscope => hstack scope (hsub hscope)) move hclosed line hline
      · rw [eq_endLine_of_mem_lineEnd hend] at hline
        cases hline
      · obtain rfl : first = line := Option.some.inj hline
        exact hfirst
      · exact ih henter (fun other hother => hlines other (List.mem_cons_of_mem _ hother))
          move hrest line hline

end IndentMarkup.Html
