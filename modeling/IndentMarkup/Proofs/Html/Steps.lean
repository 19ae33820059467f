import IndentMarkup.Proofs.Html.Walk
import Mathlib.Data.List.TakeWhile

/-!
The walk in single steps. A step closes the innermost open scope, ends the
output line of its start tag, or opens the next line, and it does the first of
these that it can. Each open scope carries the position of its line, which
tells lines apart that look alike. The moves of the walk are those of the one
run that starts with nothing open and goes on until all is closed again.
-/

namespace IndentMarkup.Html

/-- An open scope with the position of its line in the document. -/
structure OpenScope where
  position : Nat
  scope : Scope
  deriving DecidableEq, Repr

namespace OpenScope

def level (entry : OpenScope) : Nat := entry.scope.line.level

/-- The same scope when the output line of its start tag has been ended. -/
def settled (entry : OpenScope) : OpenScope :=
  { entry with scope := { entry.scope with pending := false } }

end OpenScope

/-- What happens to the stack: the line at a position is opened or closed. -/
inductive Turn
  | push (position : Nat)
  | pop (position : Nat)
  deriving DecidableEq, Repr

/-- The walk between two moves. -/
structure Walker where
  /-- Innermost first. -/
  stack : List OpenScope := []
  /-- How many lines have been opened, which is the position of the next one. -/
  opened : Nat := 0
  turns : List Turn := []
  deriving DecidableEq, Repr

inductive Step (lines : List Line) : Walker → Move → Walker → Prop
  /-- The next line stands at the level of the innermost scope or above it, or
  there is no next line. -/
  | close {top : OpenScope} {below : List OpenScope} {opened : Nat} {turns : List Turn}
      (hclosed : ∀ line ∈ lines[opened]?, line.level ≤ top.level) :
      Step lines ⟨top :: below, opened, turns⟩ (.finish top.scope)
        ⟨below, opened, turns ++ [.pop top.position]⟩
  | settle {top : OpenScope} {below : List OpenScope} {opened : Nat} {turns : List Turn}
      {line : Line} (hline : lines[opened]? = some line) (hdeeper : top.level < line.level)
      (hpending : top.scope.pending = true) :
      Step lines ⟨top :: below, opened, turns⟩ .endLine ⟨top.settled :: below, opened, turns⟩
  | start {stack : List OpenScope} {opened : Nat} {turns : List Turn} {line : Line}
      (hline : lines[opened]? = some line)
      (hready : ∀ top ∈ stack.head?, top.level < line.level ∧ top.scope.pending = false) :
      Step lines ⟨stack, opened, turns⟩ (.start line)
        ⟨⟨opened, .ofLine line⟩ :: stack, opened + 1, turns ++ [.push opened]⟩

/-- Steps one after another, with the moves that they make. -/
inductive Run (lines : List Line) : Walker → List Move → Walker → Prop
  | stop (walker : Walker) : Run lines walker [] walker
  | step {walker after final : Walker} {move : Move} {moves : List Move}
      (hstep : Step lines walker move after) (hrest : Run lines after moves final) :
      Run lines walker (move :: moves) final

section Determinism

variable {lines : List Line} {walker : Walker}

theorem Step.deterministic {move other : Move} {after afterOther : Walker}
    (h : Step lines walker move after) (hother : Step lines walker other afterOther) :
    move = other ∧ after = afterOther := by
  cases h with
  | close hclosed =>
      cases hother with
      | close => exact ⟨rfl, rfl⟩
      | settle hline hdeeper => exact absurd (hclosed _ hline) (Nat.not_le.mpr hdeeper)
      | start hline hready => exact absurd (hclosed _ hline) (Nat.not_le.mpr (hready _ rfl).1)
  | settle hline hdeeper hpending =>
      cases hother with
      | close hclosed => exact absurd (hclosed _ hline) (Nat.not_le.mpr hdeeper)
      | settle => exact ⟨rfl, rfl⟩
      | start _ hready =>
          rw [(hready _ rfl).2] at hpending
          cases hpending
  | start hline hready =>
      cases hother with
      | close hclosed => exact absurd (hclosed _ hline) (Nat.not_le.mpr (hready _ rfl).1)
      | settle _ _ hpending =>
          rw [(hready _ rfl).2] at hpending
          cases hpending
      | start hlineOther =>
          obtain rfl := Option.some.inj (hline.symm.trans hlineOther)
          exact ⟨rfl, rfl⟩

theorem Run.append {mid final : Walker} {moves rest : List Move} (h : Run lines walker moves mid)
    (hrest : Run lines mid rest final) : Run lines walker (moves ++ rest) final := by
  induction h with
  | stop => exact hrest
  | step hstep _ ih => exact .step hstep (ih hrest)

theorem Run.exists_of_append {final : Walker} {moves rest : List Move}
    (h : Run lines walker (moves ++ rest) final) :
    ∃ mid, Run lines walker moves mid ∧ Run lines mid rest final := by
  induction moves generalizing walker with
  | nil => exact ⟨walker, .stop walker, h⟩
  | cons move moves ih =>
      cases h with
      | step hstep hrun =>
          obtain ⟨mid, hmoves, hrest⟩ := ih hrun
          exact ⟨mid, .step hstep hmoves, hrest⟩

/-- What every step keeps holds throughout a run. -/
theorem Run.invariant {P : Walker → Prop}
    (hstep : ∀ before move after, Step lines before move after → P before → P after)
    {final : Walker} {moves : List Move} (h : Run lines walker moves final) (hstart : P walker) :
    P final := by
  induction h with
  | stop => exact hstart
  | step hfirst _ ih => exact ih (hstep _ _ _ hfirst hstart)

/-- No run leaves the way of one that cannot go on. -/
theorem Run.isPrefix {mid final : Walker} {moves all : List Move}
    (h : Run lines walker moves mid) (hall : Run lines walker all final)
    (hfinal : ∀ move after, ¬ Step lines final move after) : moves <+: all := by
  induction h generalizing all with
  | stop => exact List.nil_prefix
  | step hstep _ ih =>
      cases hall with
      | stop => exact absurd hstep (hfinal _ _)
      | step hother hrest =>
          obtain ⟨rfl, rfl⟩ := hstep.deterministic hother
          exact List.cons_prefix_cons.mpr ⟨rfl, ih hrest⟩

/-- With everything closed and no line left, nothing can be done. -/
theorem not_step_final (turns : List Turn) (move : Move) (after : Walker) :
    ¬ Step lines ⟨[], lines.length, turns⟩ move after := by
  intro h
  cases h with
  | start hline => simp at hline

end Determinism

section Walk

variable {lines : List Line}

theorem run_close {closed : List OpenScope} (below : List OpenScope) {opened : Nat}
    (turns : List Turn)
    (h : ∀ entry ∈ closed, ∀ line ∈ lines[opened]?, line.level ≤ entry.level) :
    Run lines ⟨closed ++ below, opened, turns⟩ ((closed.map (·.scope)).map .finish)
      ⟨below, opened, turns ++ closed.map (.pop ·.position)⟩ := by
  induction closed generalizing turns with
  | nil => simpa using Run.stop _
  | cons top closed ih =>
      have hrest := ih (turns ++ [.pop top.position])
        fun entry hentry => h entry (List.mem_cons_of_mem _ hentry)
      rw [List.append_assoc, List.singleton_append] at hrest
      exact .step (.close (h top List.mem_cons_self)) hrest

/-- The innermost of the scopes gets a child. -/
def settleTop : List OpenScope → List OpenScope
  | [] => []
  | top :: below => top.settled :: below

theorem map_scope_settleTop (stack : List OpenScope) :
    (settleTop stack).map (·.scope) = settle (stack.map (·.scope)) := by
  cases stack <;> rfl

theorem run_start {kept : List OpenScope} {opened : Nat} (turns : List Turn) {line : Line}
    (hline : lines[opened]? = some line) (hkept : ∀ top ∈ kept.head?, top.level < line.level) :
    Run lines ⟨kept, opened, turns⟩ (lineEnd (kept.map (·.scope)) ++ [.start line])
      ⟨⟨opened, .ofLine line⟩ :: settleTop kept, opened + 1, turns ++ [.push opened]⟩ := by
  cases kept with
  | nil => exact .step (.start hline (by simp)) (.stop _)
  | cons top below =>
      have hdeeper := hkept top rfl
      have hready : ∀ entry ∈ (settleTop (top :: below)).head?,
          entry.level < line.level ∧ entry.scope.pending = false := by
        intro entry hentry
        obtain rfl : top.settled = entry := Option.some.inj hentry
        exact ⟨hdeeper, rfl⟩
      have hstart : Run lines ⟨settleTop (top :: below), opened, turns⟩ [.start line] _ :=
        .step (.start hline hready) (.stop _)
      rw [List.map_cons, lineEnd]
      split
      case isTrue hpending => exact .step (.settle hline hdeeper hpending) hstart
      case isFalse hsettled =>
        have hsame : settleTop (top :: below) = top :: below := by
          have hflag : top.scope.pending = false := by simpa using hsettled
          rw [settleTop, OpenScope.settled, ← hflag]
        rw [hsame] at hstart ⊢
        exact hstart

theorem map_scope_takeWhile (line : Line) (stack : List OpenScope) :
    (stack.takeWhile (line.level ≤ ·.level)).map (·.scope) =
      closedBy line (stack.map (·.scope)) := by
  rw [closedBy, List.takeWhile_map]
  rfl

theorem map_scope_dropWhile (line : Line) (stack : List OpenScope) :
    (stack.dropWhile (line.level ≤ ·.level)).map (·.scope) =
      keptBy line (stack.map (·.scope)) := by
  rw [keptBy, List.dropWhile_map]
  rfl

/-- What a walk does from any stack is a run of steps. -/
theorem exists_run_walk (before : List Line) {rest : List Line} (hlines : before ++ rest = lines)
    (stack : List OpenScope) (turns : List Turn) :
    ∃ later, Run lines ⟨stack, before.length, turns⟩ (walk (stack.map (·.scope)) rest)
      ⟨[], lines.length, later⟩ := by
  induction rest generalizing before stack turns with
  | nil =>
      rw [List.append_nil] at hlines
      subst hlines
      have hclosed : ∀ entry ∈ stack, ∀ line ∈ before[before.length]?, line.level ≤ entry.level := by
        simp
      have hrun := run_close [] turns hclosed
      rw [List.append_nil] at hrun
      exact ⟨_, hrun⟩
  | cons line rest ih =>
      have hline : lines[before.length]? = some line := by simp [← hlines]
      have hclosed : ∀ entry ∈ stack.takeWhile (line.level ≤ ·.level),
          ∀ next ∈ lines[before.length]?, next.level ≤ entry.level := by
        intro entry hentry next hnext
        obtain rfl := Option.some.inj (hline.symm.trans hnext)
        simpa using List.mem_takeWhile_imp hentry
      have hkept : ∀ top ∈ (stack.dropWhile (line.level ≤ ·.level)).head?,
          top.level < line.level := by
        intro top htop
        have hfail := List.head?_dropWhile_not (line.level ≤ ·.level) stack
        rw [Option.mem_def.mp htop] at hfail
        simpa using hfail
      have hclose := run_close (stack.dropWhile (line.level ≤ ·.level)) turns hclosed
      rw [List.takeWhile_append_dropWhile, map_scope_takeWhile] at hclose
      have hstart := run_start (turns ++ (stack.takeWhile (line.level ≤ ·.level)).map
        (.pop ·.position)) hline hkept
      rw [map_scope_dropWhile] at hstart
      obtain ⟨later, hrest⟩ := ih (before ++ [line]) (by simpa using hlines)
        (⟨before.length, .ofLine line⟩ :: settleTop (stack.dropWhile (line.level ≤ ·.level)))
        (turns ++ (stack.takeWhile (line.level ≤ ·.level)).map (.pop ·.position) ++
          [.push before.length])
      rw [List.map_cons, map_scope_settleTop, map_scope_dropWhile, List.length_append] at hrest
      refine ⟨later, ?_⟩
      have hrun := (hclose.append hstart).append hrest
      simpa [walk, enter] using hrun

end Walk

end IndentMarkup.Html
