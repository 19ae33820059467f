import IndentMarkup.Proofs.Html.Steps

/-!
The order in which lines are opened and closed. While the walk is under way
the turns so far fall apart along the stack: behind the one that opened a
scope, everything that was opened has been closed, up to the one that opened
the next scope above it. The lines are therefore closed in the reverse of
the order in which they were opened.
-/

namespace IndentMarkup.Html

section Turns

/-- The lines that are opened, in this order. -/
def pushes (turns : List Turn) : List Nat :=
  turns.filterMap fun
    | .push position => some position
    | .pop _ => none

/-- The lines that are closed, in this order. -/
def pops (turns : List Turn) : List Nat :=
  turns.filterMap fun
    | .push _ => none
    | .pop position => some position

@[simp] theorem pushes_append (turns later : List Turn) :
    pushes (turns ++ later) = pushes turns ++ pushes later := List.filterMap_append

@[simp] theorem pops_append (turns later : List Turn) :
    pops (turns ++ later) = pops turns ++ pops later := List.filterMap_append

@[simp] theorem pushes_push (position : Nat) (turns : List Turn) :
    pushes (.push position :: turns) = position :: pushes turns := rfl

@[simp] theorem pushes_pop (position : Nat) (turns : List Turn) :
    pushes (.pop position :: turns) = pushes turns := rfl

@[simp] theorem pops_push (position : Nat) (turns : List Turn) :
    pops (.push position :: turns) = pops turns := rfl

@[simp] theorem pops_pop (position : Nat) (turns : List Turn) :
    pops (.pop position :: turns) = position :: pops turns := rfl

@[simp] theorem pushes_nil : pushes [] = [] := rfl

@[simp] theorem pops_nil : pops [] = [] := rfl

/-- What is closed is what is opened, each line as often as it is opened. -/
def Balanced (turns : List Turn) : Prop := (pops turns).Perm (pushes turns)

theorem Balanced.append {turns later : List Turn} (h : Balanced turns) (hlater : Balanced later) :
    Balanced (turns ++ later) := by
  rw [Balanced, pops_append, pushes_append]
  exact List.Perm.append h hlater

theorem Balanced.enclosed {turns : List Turn} (h : Balanced turns) (position : Nat) :
    Balanced (.push position :: turns ++ [.pop position]) := by
  have hpops : pops (.push position :: turns ++ [.pop position]) = pops turns ++ [position] := by
    simp
  have hpushes : pushes (.push position :: turns ++ [.pop position]) =
      position :: pushes turns := by
    simp
  rw [Balanced, hpops, hpushes]
  exact (List.perm_append_singleton position _).trans (List.Perm.cons position h)

/-- A line is closed only after it was opened, and everything that was opened
since then was closed before it. -/
def LastInFirstOut (turns : List Turn) : Prop :=
  ∀ before position after, turns = before ++ .pop position :: after →
    ∃ earlier since, before = earlier ++ .push position :: since ∧ Balanced since

theorem LastInFirstOut.concat {turns : List Turn} {turn : Turn} (h : LastInFirstOut turns)
    (hturn : ∀ position, turn = .pop position →
      ∃ earlier since, turns = earlier ++ .push position :: since ∧ Balanced since) :
    LastInFirstOut (turns ++ [turn]) := by
  intro before position after heq
  rcases List.eq_nil_or_concat after with rfl | ⟨between, last, rfl⟩
  · obtain ⟨rfl, hpop⟩ := List.append_singleton_inj.mp heq
    exact hturn position hpop
  · rw [List.concat_eq_append, ← List.cons_append, ← List.append_assoc] at heq
    exact h before position between (List.append_singleton_inj.mp heq).1

/-- The turns that have led to a stack, given by the positions of its lines. -/
def Recorded : List Nat → List Turn → Prop
  | [], turns => Balanced turns
  | top :: below, turns =>
    ∃ earlier since, turns = earlier ++ .push top :: since ∧ Balanced since ∧
      Recorded below earlier

theorem Recorded.append {positions : List Nat} {turns later : List Turn}
    (h : Recorded positions turns) (hlater : Balanced later) :
    Recorded positions (turns ++ later) := by
  cases positions with
  | nil => exact Balanced.append h hlater
  | cons top below =>
      obtain ⟨earlier, since, rfl, hsince, hbelow⟩ := h
      refine ⟨earlier, since ++ later, ?_, hsince.append hlater, hbelow⟩
      rw [List.append_assoc, List.cons_append]

theorem Recorded.push {positions : List Nat} {turns : List Turn} (h : Recorded positions turns)
    (position : Nat) : Recorded (position :: positions) (turns ++ [.push position]) :=
  ⟨turns, [], rfl, List.Perm.refl _, h⟩

theorem Recorded.pop {top : Nat} {below : List Nat} {turns : List Turn}
    (h : Recorded (top :: below) turns) : Recorded below (turns ++ [.pop top]) := by
  obtain ⟨earlier, since, rfl, hsince, hbelow⟩ := h
  rw [List.append_assoc]
  exact hbelow.append (hsince.enclosed top)

end Turns

section Walk

variable {lines : List Line}

/-- What the turns so far are, between two moves. -/
structure Logged (walker : Walker) : Prop where
  opened : pushes walker.turns = List.range walker.opened
  recorded : Recorded (walker.stack.map (·.position)) walker.turns
  lastInFirstOut : LastInFirstOut walker.turns

theorem Step.logged {walker after : Walker} {move : Move} (h : Step lines walker move after)
    (hlogged : Logged walker) : Logged after := by
  cases h with
  | @close top below opened turns =>
      refine ⟨?_, hlogged.recorded.pop, hlogged.lastInFirstOut.concat ?_⟩
      · simpa using hlogged.opened
      · intro position hpop
        obtain rfl : top.position = position := Turn.pop.inj hpop
        obtain ⟨earlier, since, hturns, hsince, -⟩ := hlogged.recorded
        exact ⟨earlier, since, hturns, hsince⟩
  | settle => exact ⟨hlogged.opened, hlogged.recorded, hlogged.lastInFirstOut⟩
  | @start stack opened turns line =>
      refine ⟨?_, hlogged.recorded.push opened, hlogged.lastInFirstOut.concat ?_⟩
      · rw [pushes_append, hlogged.opened, List.range_succ]
        rfl
      · intro position hpop
        cases hpop

theorem logged_initial : Logged {} where
  opened := rfl
  recorded := List.Perm.refl _
  lastInFirstOut := fun before _ _ h => by cases before <;> cases h

theorem Run.logged {moves : List Move} {walker : Walker} (h : Run lines {} moves walker) :
    Logged walker :=
  h.invariant (fun _ _ _ hstep => hstep.logged) logged_initial

/-- Over the whole walk every line is opened once, in order, and closed once,
after all lines that were opened while it was open. -/
theorem exists_run_walk_nil (lines : List Line) :
    ∃ turns, Run lines {} (walk [] lines) ⟨[], lines.length, turns⟩ ∧
      pushes turns = List.range lines.length ∧
      (pops turns).Perm (List.range lines.length) ∧ LastInFirstOut turns := by
  obtain ⟨turns, hrun⟩ := exists_run_walk [] (List.nil_append lines) [] []
  have hlogged := hrun.logged
  refine ⟨turns, hrun, hlogged.opened, ?_, hlogged.lastInFirstOut⟩
  rw [← show pushes turns = List.range lines.length from hlogged.opened]
  exact hlogged.recorded

end Walk

end IndentMarkup.Html
