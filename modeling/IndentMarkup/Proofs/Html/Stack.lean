import IndentMarkup.Proofs.Html.Nesting
import IndentMarkup.Proofs.Html.Turns
import IndentMarkup.Proofs.InlineBlock.Containment
import Mathlib.Data.List.Sort

/-!
What the stack of open scopes is at every step of the walk. Its levels fall
from the innermost scope outwards, and only the innermost start tag can still
wait for the end of its output line. A scope stays on the stack for as long as
every line behind it is deeper, so that once a line has been opened the stack
holds that line and those that enclose it.
-/

namespace IndentMarkup.Html

variable {lines : List Line}

section Order

/-- The scopes lie in the order of their levels and of their positions, and
under the innermost one every output line has been ended. -/
structure Ordered (stack : List OpenScope) : Prop where
  levels : stack.Pairwise (·.level > ·.level)
  positions : stack.Pairwise (·.position > ·.position)
  settled : ∀ entry ∈ stack.tail, entry.scope.pending = false

theorem Ordered.of_cons {top : OpenScope} {below : List OpenScope} (h : Ordered (top :: below)) :
    Ordered below where
  levels := h.levels.of_cons
  positions := h.positions.of_cons
  settled := fun entry hentry => h.settled entry (List.mem_of_mem_tail hentry)

-- A settled scope has the level and the position that it had, so what is said
-- of these two carries over as it is.
theorem Ordered.settleTop {top : OpenScope} {below : List OpenScope}
    (h : Ordered (top :: below)) : Ordered (top.settled :: below) where
  levels := List.pairwise_cons.mpr (List.pairwise_cons.mp h.levels)
  positions := List.pairwise_cons.mpr (List.pairwise_cons.mp h.positions)
  settled := h.settled

/-- A line deeper than the innermost scope is deeper than all of them. -/
theorem Ordered.level_lt {stack : List OpenScope} (h : Ordered stack) {level : Nat}
    (htop : ∀ top ∈ stack.head?, top.level < level) : ∀ entry ∈ stack, entry.level < level := by
  intro entry hentry
  cases stack with
  | nil => cases hentry
  | cons top below =>
      rcases List.mem_cons.mp hentry with rfl | hbelow
      · exact htop entry rfl
      · exact Nat.lt_trans (List.rel_of_pairwise_cons h.levels hbelow) (htop top rfl)

theorem Ordered.pending_eq_false {stack : List OpenScope} (h : Ordered stack)
    (htop : ∀ top ∈ stack.head?, top.scope.pending = false) :
    ∀ entry ∈ stack, entry.scope.pending = false := by
  intro entry hentry
  cases stack with
  | nil => cases hentry
  | cons top below =>
      rcases List.mem_cons.mp hentry with rfl | hbelow
      · exact htop entry rfl
      · exact h.settled entry hbelow

end Order

section Place

/-- The scopes stand for the lines at their positions, and every line that was
opened behind one of them is deeper. -/
structure Placed (lines : List Line) (stack : List OpenScope) (opened : Nat) : Prop where
  passed : ∀ entry ∈ stack, entry.position < opened
  line : ∀ entry ∈ stack, lines[entry.position]? = some entry.scope.line
  deeper : ∀ entry ∈ stack, ∀ k, entry.position < k → k < opened →
    ∀ line ∈ lines[k]?, entry.level < line.level
  /-- What encloses the next line is still on the stack. -/
  kept : ∀ i, Encloses lines i opened → i ∈ stack.map (·.position)

theorem Placed.close {top : OpenScope} {below : List OpenScope} {opened : Nat}
    (h : Placed lines (top :: below) opened)
    (hclosed : ∀ line ∈ lines[opened]?, line.level ≤ top.level) :
    Placed lines below opened where
  passed := fun entry hentry => h.passed entry (List.mem_cons_of_mem _ hentry)
  line := fun entry hentry => h.line entry (List.mem_cons_of_mem _ hentry)
  deeper := fun entry hentry => h.deeper entry (List.mem_cons_of_mem _ hentry)
  kept := by
    intro i hencloses
    rcases List.mem_cons.mp (h.kept i hencloses) with rfl | hbelow
    · -- The innermost scope does not enclose a line that stands above it.
      obtain ⟨hlt, hlength, outer, houter, hthrough⟩ := hencloses
      have hnext := List.getElem?_eq_getElem hlength
      obtain rfl := Option.some.inj ((h.line top List.mem_cons_self).symm.trans houter)
      exact absurd (hclosed _ hnext) (Nat.not_le.mpr (hthrough opened hlt le_rfl _ hnext))
    · exact hbelow

theorem Placed.settleTop {top : OpenScope} {below : List OpenScope} {opened : Nat}
    (h : Placed lines (top :: below) opened) : Placed lines (top.settled :: below) opened where
  passed := List.forall_mem_cons.mpr (List.forall_mem_cons.mp h.passed)
  line := List.forall_mem_cons.mpr (List.forall_mem_cons.mp h.line)
  deeper := List.forall_mem_cons.mpr (List.forall_mem_cons.mp h.deeper)
  kept := h.kept

theorem Placed.start {stack : List OpenScope} {opened : Nat} {line : Line}
    (h : Placed lines stack opened) (hline : lines[opened]? = some line)
    (hdeeper : ∀ entry ∈ stack, entry.level < line.level) :
    Placed lines (⟨opened, .ofLine line⟩ :: stack) (opened + 1) where
  passed := List.forall_mem_cons.mpr
    ⟨Nat.lt_succ_self opened, fun entry hentry => Nat.lt_succ_of_lt (h.passed entry hentry)⟩
  line := List.forall_mem_cons.mpr ⟨hline, h.line⟩
  deeper := by
    refine List.forall_mem_cons.mpr ⟨fun k hlt hle => absurd hle (Nat.not_lt.mpr hlt), ?_⟩
    intro entry hentry k hlt hle other hother
    rcases Nat.lt_succ_iff_lt_or_eq.mp hle with hbefore | rfl
    · exact h.deeper entry hentry k hlt hbefore other hother
    · obtain rfl := Option.some.inj (hline.symm.trans hother)
      exact hdeeper entry hentry
  kept := by
    intro i hencloses
    obtain ⟨hle, hlength, outer, houter, hthrough⟩ := hencloses
    rw [List.map_cons, List.mem_cons]
    rcases Nat.lt_succ_iff_lt_or_eq.mp hle with hbefore | rfl
    · -- A line that encloses the one after this one encloses this one too.
      refine .inr (h.kept i ⟨hbefore, Nat.lt_of_succ_lt hlength, outer, houter, ?_⟩)
      exact fun k hik hk => hthrough k hik (Nat.le_succ_of_le hk)
    · exact .inl rfl

/-- The next line is enclosed exactly by the lines on the stack, once it is
deeper than all of them. -/
theorem Placed.mem_positions_iff {stack : List OpenScope} {opened : Nat} {line : Line}
    (h : Placed lines stack opened) (hline : lines[opened]? = some line)
    (hdeeper : ∀ entry ∈ stack, entry.level < line.level) (i : Nat) :
    i ∈ stack.map (·.position) ↔ Encloses lines i opened := by
  constructor
  · intro hmem
    obtain ⟨entry, hentry, rfl⟩ := List.mem_map.mp hmem
    have hlength := (List.getElem?_eq_some_iff.mp hline).1
    refine ⟨h.passed entry hentry, hlength, entry.scope.line, h.line entry hentry, ?_⟩
    intro k hlt hle other hother
    rcases Nat.lt_or_eq_of_le hle with hbefore | rfl
    · exact h.deeper entry hentry k hlt hbefore other hother
    · obtain rfl := Option.some.inj (hline.symm.trans hother)
      exact hdeeper entry hentry
  · exact h.kept i

/-- The positions of the lines that enclose the one at `i`, innermost first. -/
def enclosingPositions (lines : List Line) (i : Nat) : List Nat :=
  ((List.range i).filter (Encloses lines · i)).reverse

theorem mem_enclosingPositions {i j : Nat} : j ∈ enclosingPositions lines i ↔ Encloses lines j i := by
  rw [enclosingPositions, List.mem_reverse, List.mem_filter, List.mem_range, decide_eq_true_iff]
  exact and_iff_right_of_imp fun h => h.1

theorem pairwise_enclosingPositions (lines : List Line) (i : Nat) :
    (enclosingPositions lines i).Pairwise (· > ·) :=
  List.pairwise_reverse.mpr (List.pairwise_lt_range.filter _)

theorem positions_eq_enclosingPositions {stack : List OpenScope} {opened : Nat} {line : Line}
    (hordered : Ordered stack) (h : Placed lines stack opened)
    (hline : lines[opened]? = some line) (hdeeper : ∀ entry ∈ stack, entry.level < line.level) :
    stack.map (·.position) = enclosingPositions lines opened := by
  have hpositions : (stack.map (·.position)).Pairwise (· > ·) :=
    List.pairwise_map.mpr hordered.positions
  refine hpositions.eq_of_mem_iff (pairwise_enclosingPositions lines opened) fun i => ?_
  rw [mem_enclosingPositions]
  exact h.mem_positions_iff hline hdeeper i

end Place

section Enclosing

theorem encloses_append_iff (front between after : List Line) (outer line : Line) :
    Encloses (front ++ outer :: (between ++ line :: after)) front.length
        (front.length + (between.length + 1)) ↔
      ∀ other ∈ between ++ [line], outer.level < other.level := by
  have houter : (front ++ outer :: (between ++ line :: after))[front.length]? = some outer := by
    rw [List.getElem?_append_right (Nat.le_refl _), Nat.sub_self]
    rfl
  have hlength : front.length + (between.length + 1) <
      (front ++ outer :: (between ++ line :: after)).length := by
    simp only [List.length_append, List.length_cons]
    omega
  have htake : ((front ++ outer :: (between ++ line :: after)).take
      (front.length + (between.length + 1) + 1)).drop (front.length + 1) = between ++ [line] := by
    rw [Nat.add_assoc, List.take_length_add_append, List.drop_length_add_append,
      List.take_succ_cons, List.drop_succ_cons, List.take_length_add_append]
    rfl
  rw [encloses_iff_deeperThrough (by omega) hlength houter, deeperThrough_iff_forall_mem, htake]

theorem filterMap_range'_encloses (front before after : List Line) (line : Line) :
    ((List.range' front.length before.length).filter
        (Encloses (front ++ (before ++ line :: after)) · (front.length + before.length))).filterMap
      ((front ++ (before ++ line :: after))[·]?) = line.enclosing before := by
  induction before generalizing front with
  | nil => rfl
  | cons outer between ih =>
      have hrest := ih (front ++ [outer])
      rw [List.length_append, List.length_singleton, List.append_assoc, List.singleton_append,
        Nat.add_assoc, Nat.add_comm 1] at hrest
      have houter : (front ++ (outer :: between ++ line :: after))[front.length]? = some outer := by
        rw [List.getElem?_append_right (Nat.le_refl _), Nat.sub_self]
        rfl
      have hencloses := encloses_append_iff front between after outer line
      rw [List.length_cons, List.range'_succ, List.filter_cons, Line.enclosing]
      simp only [List.all_eq_true, decide_eq_true_iff]
      split
      case isTrue hall =>
        rw [if_pos (hencloses.mp hall), List.filterMap_cons_some houter]
        exact congrArg _ hrest
      case isFalse hnot =>
        rw [if_neg fun hall => hnot (hencloses.mpr hall)]
        exact hrest

/-- The lines at the positions that enclose a line are the lines that enclose it. -/
theorem filterMap_enclosingPositions (before after : List Line) (line : Line) :
    (enclosingPositions (before ++ line :: after) before.length).filterMap
        ((before ++ line :: after)[·]?) = (line.enclosing before).reverse := by
  have hlines := filterMap_range'_encloses [] before after line
  rw [List.length_nil, Nat.zero_add, List.nil_append, ← List.range_eq_range'] at hlines
  rw [enclosingPositions, List.filterMap_reverse, hlines]

end Enclosing

section Follow

/-- To the next line the stack is as good as the one that the walk holds after
the lines that have been opened. -/
def Follows (lines : List Line) (stack : List OpenScope) (opened : Nat) : Prop :=
  ∀ line ∈ lines[opened]?,
    enter (stack.map (·.scope)) line = enter (stackAfter (lines.take opened)) line

theorem Follows.close {top : OpenScope} {below : List OpenScope} {opened : Nat}
    (h : Follows lines (top :: below) opened)
    (hclosed : ∀ line ∈ lines[opened]?, line.level ≤ top.level) :
    Follows lines below opened := by
  intro line hline
  have hkept : keptBy line ((top :: below).map (·.scope)) = keptBy line (below.map (·.scope)) :=
    keptBy_append_of_closed _ (List.forall_mem_singleton.mpr (hclosed line hline))
  rw [← h line hline, enter, enter, hkept]

theorem Follows.settleTop {top : OpenScope} {below : List OpenScope} {opened : Nat} {line : Line}
    (h : Follows lines (top :: below) opened) (hline : lines[opened]? = some line)
    (hdeeper : top.level < line.level) : Follows lines (top.settled :: below) opened := by
  intro next hnext
  obtain rfl := Option.some.inj (hline.symm.trans hnext)
  have hkept : keptBy line (top.scope :: below.map (·.scope)) =
      top.scope :: below.map (·.scope) := keptBy_append_of_lt [] _ hdeeper
  have hsettled : keptBy line (top.settled.scope :: below.map (·.scope)) =
      top.settled.scope :: below.map (·.scope) := keptBy_append_of_lt [] _ hdeeper
  have hbefore := h line hnext
  rw [enter, List.map_cons, hkept] at hbefore
  rw [enter, List.map_cons, hsettled]
  exact hbefore

theorem Follows.map_scope_start {stack : List OpenScope} {opened : Nat} {line : Line}
    (h : Follows lines stack opened) (hline : lines[opened]? = some line)
    (hready : ∀ top ∈ stack.head?, top.level < line.level ∧ top.scope.pending = false) :
    Scope.ofLine line :: stack.map (·.scope) = stackAfter (lines.take (opened + 1)) := by
  have henter : enter (stack.map (·.scope)) line = Scope.ofLine line :: stack.map (·.scope) := by
    cases stack with
    | nil => rfl
    | cons top below =>
        obtain ⟨hdeeper, hsettled⟩ := hready top rfl
        have hkept : keptBy line ((top :: below).map (·.scope)) = (top :: below).map (·.scope) :=
          keptBy_append_of_lt [] _ hdeeper
        rw [enter, hkept, List.map_cons, settle, ← hsettled]
  rw [List.take_add_one, hline, Option.toList_some, stackAfter_concat, ← h line hline, henter]

end Follow

section Walk

/-- What holds between two moves. -/
structure Sound (lines : List Line) (walker : Walker) : Prop where
  ordered : Ordered walker.stack
  placed : Placed lines walker.stack walker.opened
  follows : Follows lines walker.stack walker.opened

theorem Step.sound {walker after : Walker} {move : Move} (h : Step lines walker move after)
    (hsound : Sound lines walker) : Sound lines after := by
  obtain ⟨hordered, hplaced, hfollows⟩ := hsound
  cases h with
  | close hclosed => exact ⟨hordered.of_cons, hplaced.close hclosed, hfollows.close hclosed⟩
  | settle hline hdeeper =>
      exact ⟨hordered.settleTop, hplaced.settleTop, hfollows.settleTop hline hdeeper⟩
  | @start stack opened turns line hline hready =>
      have hdeeper := hordered.level_lt fun top htop => (hready top htop).1
      refine ⟨?_, hplaced.start hline hdeeper, ?_⟩
      · exact {
          levels := List.pairwise_cons.mpr ⟨hdeeper, hordered.levels⟩
          positions := List.pairwise_cons.mpr ⟨hplaced.passed, hordered.positions⟩
          settled := hordered.pending_eq_false fun top htop => (hready top htop).2 }
      · intro next _
        rw [← hfollows.map_scope_start hline hready]
        rfl

theorem sound_initial (lines : List Line) : Sound lines {} where
  ordered := ⟨List.Pairwise.nil, List.Pairwise.nil, fun _ h => absurd h List.not_mem_nil⟩
  placed := {
    passed := fun _ h => absurd h List.not_mem_nil
    line := fun _ h => absurd h List.not_mem_nil
    deeper := fun _ h => absurd h List.not_mem_nil
    kept := fun i h => absurd h.1 (Nat.not_lt_zero i) }
  follows := fun _ _ => rfl

theorem Run.sound {moves : List Move} {walker : Walker} (h : Run lines {} moves walker) :
    Sound lines walker :=
  h.invariant (fun _ _ _ hstep => hstep.sound) (sound_initial lines)

/-- A run that has just opened a line holds it and the lines that enclose it. -/
theorem Run.stack_after_start {moves : List Move} {line : Line} {walker : Walker}
    (h : Run lines {} (moves ++ [.start line]) walker) :
    ∃ i, walker.opened = i + 1 ∧ lines[i]? = some line ∧
      walker.stack.map (·.position) = i :: enclosingPositions lines i ∧
      walker.stack.map (·.scope) = stackAfter (lines.take (i + 1)) := by
  obtain ⟨before, hbefore, hlast⟩ := h.exists_of_append
  obtain ⟨hordered, hplaced, hfollows⟩ := hbefore.sound
  cases hlast with
  | step hstep hstop =>
      cases hstop
      cases hstep with
      | @start stack opened turns _ hline hready =>
          have hdeeper := hordered.level_lt fun top htop => (hready top htop).1
          refine ⟨opened, rfl, hline, ?_, hfollows.map_scope_start hline hready⟩
          rw [List.map_cons, positions_eq_enclosingPositions hordered hplaced hline hdeeper]

/-- The discipline of the stack. The moves of the walk are those of a run that
opens every line once, in order, and closes every line once, each after all
that were opened above it; the runs from the start are the beginnings of this
one. At every step the levels on the stack rise from the outermost scope to
the innermost, and the start tags under the innermost one have their output
lines ended. When a line has just been opened, the stack is the one that the
walk holds, and on it are the line and, innermost first, those that enclose it. -/
theorem walk_stack_discipline (lines : List Line) :
    (∃ turns, Run lines {} (walk [] lines) ⟨[], lines.length, turns⟩ ∧
        pushes turns = List.range lines.length ∧
        (pops turns).Perm (List.range lines.length) ∧ LastInFirstOut turns) ∧
      (∀ moves, (∃ walker, Run lines {} moves walker) ↔ moves <+: walk [] lines) ∧
      (∀ moves walker, Run lines {} moves walker →
        walker.stack.Pairwise (·.level > ·.level) ∧
          (∀ entry ∈ walker.stack.tail, entry.scope.pending = false) ∧
          ∀ entry ∈ walker.stack, lines[entry.position]? = some entry.scope.line) ∧
      ∀ moves line walker, Run lines {} (moves ++ [.start line]) walker →
        ∃ i, walker.opened = i + 1 ∧ lines[i]? = some line ∧
          walker.stack.map (·.position) = i :: enclosingPositions lines i ∧
          walker.stack.map (·.scope) = stackAfter (lines.take (i + 1)) := by
  obtain ⟨turns, hwhole, hturns⟩ := exists_run_walk_nil lines
  refine ⟨⟨turns, hwhole, hturns⟩, fun moves => ⟨?_, ?_⟩, fun moves walker hrun => ?_,
    fun _ _ _ hrun => hrun.stack_after_start⟩
  · rintro ⟨walker, hrun⟩
    exact hrun.isPrefix hwhole (not_step_final turns)
  · rintro ⟨rest, hrest⟩
    rw [← hrest] at hwhole
    obtain ⟨walker, hrun, -⟩ := hwhole.exists_of_append
    exact ⟨walker, hrun⟩
  · have hsound := hrun.sound
    exact ⟨hsound.ordered.levels, hsound.ordered.settled, hsound.placed.line⟩

def raggedItem : Line := { level := 2, content := "li".toList, tag := .element "li".toList }

/-- A list with an item behind a text line that stands too deep and has an
element below it. -/
def raggedMenu : List Line :=
  [{ level := 1, content := "ul".toList, tag := .element "ul".toList },
   { level := 3, content := "far".toList },
   { level := 4, content := "b".toList, tag := .element "b".toList },
   raggedItem]

/-- The last line closes two scopes at once and is enclosed by the first. -/
theorem walk_stack_discipline_raggedMenu :
    ∃ walker, Run raggedMenu {} ((walk [] raggedMenu).take 7) walker ∧ walker.opened = 4 ∧
      walker.stack.map (·.position) = [3, 0] ∧
      walker.stack.map (·.scope.pending) = [true, false] := by
  obtain ⟨-, hruns, -, hstart⟩ := walk_stack_discipline raggedMenu
  have hmoves : (walk [] raggedMenu).take 7 =
      (walk [] raggedMenu).take 6 ++ [.start raggedItem] := by decide
  obtain ⟨walker, hrun⟩ := (hruns _).mpr (List.take_prefix 7 _)
  rw [hmoves] at hrun ⊢
  obtain ⟨i, hopened, hitem, hpositions, hscopes⟩ := hstart _ _ _ hrun
  have honly : ∀ i < 4, raggedMenu[i]? = some raggedItem → i = 3 := by decide
  obtain rfl := honly i (List.getElem?_eq_some_iff.mp hitem).1 hitem
  have henclosing : enclosingPositions raggedMenu 3 = [0] := by decide
  rw [henclosing] at hpositions
  have hpending := congrArg (List.map Scope.pending) hscopes
  rw [List.map_map] at hpending
  exact ⟨walker, hrun, hopened, hpositions, hpending.trans (by decide)⟩

end Walk

end IndentMarkup.Html
