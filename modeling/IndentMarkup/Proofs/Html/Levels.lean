import IndentMarkup.Proofs.Html.Progress

/-!
Levels and open scopes. As long as no line jumps, the open scopes stand at the
levels from zero up without a gap, so a line is opened inside as many scopes as
its level says; a line that jumps is not. Main statement: refusing depth jumps
accepts the documents whose nesting follows their levels, and otherwise names
the first line that is opened elsewhere.
-/

namespace IndentMarkup

namespace Html

/-- The number of scopes in which a line is opened when the lines before it
are walked from `stack`. -/
def depthAfter (stack : List Scope) (before : List Line) (line : Line) : Nat :=
  (keptBy line (before.foldl enter stack)).length

/-- Every line is opened inside as many scopes as its level says. -/
def FollowsLevelsFrom (stack : List Scope) (lines : List Line) : Prop :=
  ∀ before line after, lines = before ++ line :: after →
    depthAfter stack before line = line.level

def FollowsLevels (lines : List Line) : Prop := FollowsLevelsFrom [] lines

/-- One scope stands at each level that the next line may stay inside. -/
def Gapless (previous : Option Nat) (stack : List Scope) : Prop :=
  stack.map (·.line.level) = (List.range (allowedLevel previous)).reverse

section Stack

theorem dropWhile_reverse_range (n level : Nat) :
    (List.range n).reverse.dropWhile (level ≤ ·) = (List.range (min n level)).reverse := by
  induction n with
  | zero => simp
  | succ n ih =>
      rw [List.range_succ, List.reverse_append, List.reverse_singleton, List.singleton_append]
      by_cases hlevel : level ≤ n
      · have hmin : min (n + 1) level = min n level := by omega
        rw [List.dropWhile_cons_of_pos (by simpa using hlevel), ih, hmin]
      · have hmin : min (n + 1) level = n + 1 := by omega
        rw [List.dropWhile_cons_of_neg (by simpa using hlevel), hmin, List.range_succ,
          List.reverse_append, List.reverse_singleton, List.singleton_append]

variable {previous : Option Nat} {stack : List Scope}

theorem Gapless.map_level_keptBy (h : Gapless previous stack) (line : Line) :
    (keptBy line stack).map (·.line.level) =
      (List.range (min (allowedLevel previous) line.level)).reverse := by
  rw [← dropWhile_reverse_range, ← h, List.dropWhile_map]
  rfl

theorem Gapless.depthAfter_nil (h : Gapless previous stack) (line : Line) :
    depthAfter stack [] line = min (allowedLevel previous) line.level := by
  have hlength := congrArg List.length (h.map_level_keptBy line)
  simpa [depthAfter] using hlength

/-- A line that does not jump closes the gapless stack down to its level and
goes on top. -/
theorem Gapless.enter (h : Gapless previous stack) {line : Line}
    (hline : line.level ≤ allowedLevel previous) :
    Gapless (some line.level) (enter stack line) := by
  have hlevels : (Html.enter stack line).map (·.line.level) =
      line.level :: (keptBy line stack).map (·.line.level) := by
    have hmap := congrArg (List.map Line.level) (map_line_enter stack line)
    simpa [Function.comp_def] using hmap
  rw [Gapless, hlevels, h.map_level_keptBy, Nat.min_eq_right hline]
  show _ = (List.range (line.level + 1)).reverse
  rw [List.range_succ, List.reverse_append]
  rfl

theorem gapless_nil : Gapless none [] := rfl

end Stack

section Run

theorem followsLevelsFrom_nil (stack : List Scope) : FollowsLevelsFrom stack [] := by
  intro before line after hlines
  simp at hlines

theorem followsLevelsFrom_cons {stack : List Scope} {line : Line} {lines : List Line}
    (hline : depthAfter stack [] line = line.level)
    (hlines : FollowsLevelsFrom (enter stack line) lines) :
    FollowsLevelsFrom stack (line :: lines) := by
  intro before other after hsplit
  cases before with
  | nil =>
      obtain ⟨rfl, -⟩ := List.cons.inj hsplit
      exact hline
  | cons first before =>
      obtain ⟨rfl, hrest⟩ := List.cons.inj hsplit
      exact hlines before other after hrest

/-- A walk over the levels alone sees what happens to the stack: it goes on
while lines follow their levels and stops at the first that does not. -/
theorem refuseJumpsAfter_spec {previous : Option Nat} {stack : List Scope}
    (h : Gapless previous stack) (lines : List Line) :
    match refuseJumpsAfter previous lines with
    | .ok () => FollowsLevelsFrom stack lines
    | .error jump => ∃ before line after, lines = before ++ line :: after ∧
        FollowsLevelsFrom stack before ∧
        depthAfter stack before line ≠ line.level ∧
        jump = ⟨((before.getLast?.map Line.level).or previous).getD 0, line.level,
          line.content⟩ := by
  induction lines generalizing previous stack with
  | nil => exact followsLevelsFrom_nil stack
  | cons line lines ih =>
      -- How many scopes the line is opened in shows whether it jumps.
      have hdepth := h.depthAfter_nil line
      rw [refuseJumpsAfter, jumpAfter?_eq]
      by_cases hjump : allowedLevel previous < line.level
      · rw [if_pos hjump]
        refine ⟨[], line, lines, rfl, followsLevelsFrom_nil stack, ?_, rfl⟩
        omega
      · rw [if_neg hjump]
        have hline : depthAfter stack [] line = line.level := by omega
        have hrest := ih (h.enter (Nat.not_lt.mp hjump))
        show match refuseJumpsAfter (some line.level) lines with
          | .ok () => _
          | .error jump => _
        cases hrefuse : refuseJumpsAfter (some line.level) lines with
        | ok =>
            rw [hrefuse] at hrest
            exact followsLevelsFrom_cons hline hrest
        | error jump =>
            rw [hrefuse] at hrest
            obtain ⟨before, other, after, rfl, hbefore, hother, rfl⟩ := hrest
            refine ⟨line :: before, other, after, rfl, followsLevelsFrom_cons hline hbefore,
              hother, ?_⟩
            rw [List.getLast?_cons]
            cases before.getLast? <;> rfl

theorem refuseJumps_eq_ok_iff (lines : List Line) :
    refuseJumps lines = .ok () ↔ FollowsLevels lines := by
  have hspec := refuseJumpsAfter_spec gapless_nil lines
  rw [refuseJumps]
  cases hrefuse : refuseJumpsAfter none lines with
  | ok =>
      rw [hrefuse] at hspec
      exact ⟨fun _ => hspec, fun _ => rfl⟩
  | error jump =>
      rw [hrefuse] at hspec
      obtain ⟨before, line, after, hlines, -, hne, -⟩ := hspec
      refine ⟨fun hok => ?_, fun hall => absurd (hall before line after hlines) hne⟩
      cases hok

theorem of_refuseJumps_eq_error {lines : List Line} {jump : DepthJump}
    (h : refuseJumps lines = .error jump) :
    ∃ before line after, lines = before ++ line :: after ∧ FollowsLevels before ∧
      depthAfter [] before line ≠ line.level ∧
      jump = ⟨(before.getLast?.map Line.level).getD 0, line.level, line.content⟩ := by
  have hspec := refuseJumpsAfter_spec gapless_nil lines
  rw [refuseJumps] at h
  rw [h] at hspec
  obtain ⟨before, line, after, hlines, hbefore, hne, hjump⟩ := hspec
  rw [Option.or_none] at hjump
  exact ⟨before, line, after, hlines, hbefore, hne, hjump⟩

end Run

section Strict

/-- The lines around a line are elements or text. -/
theorem length_names_add_length_filter (lines : List Line) :
    (names lines).length + (lines.filter (·.tag = .text)).length = lines.length := by
  induction lines with
  | nil => rfl
  | cons line lines ih =>
      rw [names_cons, List.length_append, List.length_cons, ← ih]
      cases htag : line.tag with
      | text => simp [names, htag, Tag.name?]; omega
      | element name => simp [names, htag, Tag.name?]; omega

theorem length_nestingAfter_add_length_filter {before : List Line} {line : Line}
    (h : depthAfter [] before line = line.level) :
    (nestingAfter (movesBefore before line)).length +
      ((line.enclosing before).filter (·.tag = .text)).length = line.level := by
  have hdepth := congrArg List.length (map_line_keptBy_stackAfter before line)
  rw [List.length_map, List.length_reverse] at hdepth
  rw [nestingAfter_movesBefore, List.length_reverse, length_names_add_length_filter, ← hdepth]
  exact h

end Strict

end Html

theorem refuseJumps_of_compile_eq_ok {options : Options} {canonical : Text} {compiled : Compiled}
    (hstrict : options.strict = true) (h : compile options canonical = .ok compiled) :
    refuseJumps (Document.parse canonical).lines = .ok () := by
  simp only [compile, refusal?, hstrict] at h
  cases hrefuse : refuseJumps (Document.parse canonical).lines with
  | ok => rfl
  | error jump =>
      rw [hrefuse] at h
      split at h
      case h_1 => cases h
      case h_2 hnone =>
        split at hnone <;> cases hnone

namespace Html

/-- The check for depth jumps accepts the documents whose lines follow their
levels. If it refuses one, it names the first line that does not, with the
level of the line before it. In what strict mode accepts each line is written
inside as many elements as its level says, less the text lines around it. -/
theorem refuseJumps_eq_ok_iff_followsLevels :
    (∀ lines, refuseJumps lines = .ok () ↔ FollowsLevels lines) ∧
      (∀ lines jump, refuseJumps lines = .error jump →
        ∃ before line after, lines = before ++ line :: after ∧ FollowsLevels before ∧
          depthAfter [] before line ≠ line.level ∧
          jump = ⟨(before.getLast?.map Line.level).getD 0, line.level, line.content⟩) ∧
      ∀ options canonical compiled, options.strict = true →
        compile options canonical = .ok compiled →
        ∀ before line after, (Document.parse canonical).lines = before ++ line :: after →
          compiled.html =
              (movesBefore before line ++
                .start line :: walk (enter (stackAfter before) line) after).flatMap
                  (Move.text options.indent) ∧
            (nestingAfter (movesBefore before line)).length +
              ((line.enclosing before).filter (·.tag = .text)).length = line.level := by
  refine ⟨refuseJumps_eq_ok_iff, fun _ _ => of_refuseJumps_eq_error, ?_⟩
  intro options canonical compiled hstrict hcompiled before line after hlines
  have hfollows := (refuseJumps_eq_ok_iff _).mp (refuseJumps_of_compile_eq_ok hstrict hcompiled)
  refine ⟨?_, length_nestingAfter_add_length_filter (hfollows before line after hlines)⟩
  rw [eq_of_compile_eq_ok hcompiled, write, hlines, walk_append_cons]

/-- An element below a text line, and then a line back at level zero. -/
def textParent : Text := "div\n\tfar away\n\t\tb x\np".toList

/-- The lines around the element. -/
def textParentBefore : List Line :=
  [{ level := 0, content := "div".toList, tag := .element "div".toList },
   { level := 1, content := "far away".toList }]

def textParentElement : Line :=
  { level := 2, content := "b x".toList, tag := .element "b".toList, body := "x".toList }

theorem refuseJumps_eq_ok_iff_followsLevels_textParent :
    (∃ compiled, compile { strict := true } textParent = .ok compiled ∧
      nestingAfter (movesBefore textParentBefore textParentElement) = ["div".toList] ∧
      (nestingAfter (movesBefore textParentBefore textParentElement)).length +
        ((textParentElement.enclosing textParentBefore).filter (·.tag = .text)).length = 2) ∧
    ∃ before line after,
      textParentBefore ++ [{ level := 4, content := ['i'] }] = before ++ line :: after ∧
        FollowsLevels before ∧ depthAfter [] before line ≠ line.level ∧
        (⟨1, 4, ['i']⟩ : DepthJump) =
          ⟨(before.getLast?.map Line.level).getD 0, line.level, line.content⟩ := by
  obtain ⟨-, hrefused, haccepted⟩ := refuseJumps_eq_ok_iff_followsLevels
  constructor
  · obtain ⟨compiled, hcompiled⟩ :
        ∃ compiled, compile { strict := true } textParent = .ok compiled := ⟨_, rfl⟩
    have hlines : (Document.parse textParent).lines =
        textParentBefore ++ textParentElement ::
          [{ level := 0, content := ['p'], tag := .element ['p'] }] := by decide +kernel
    exact ⟨compiled, hcompiled, by decide, (haccepted _ _ _ rfl hcompiled _ _ _ hlines).2⟩
  · exact hrefused _ _ rfl

end Html

end IndentMarkup
