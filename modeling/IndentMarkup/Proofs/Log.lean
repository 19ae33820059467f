import IndentMarkup.Log
import IndentMarkup.Proofs.Canonical.Levels
import IndentMarkup.Proofs.Compile
import IndentMarkup.Proofs.InlineBlock

/-!
The lines that a log accounts for. Each stage counts for itself: the first
entry counts lines of the raw text, the entries of inline blocks are one for
each line that falls apart, and the last entry counts the lines that were
written. Main statement: the log is these entries, word for word, and no stage
loses or adds a line without an entry about it.
-/

namespace IndentMarkup

namespace Line

/-- Falling apart makes two lines of one. -/
theorem length_separate (line : Line) :
    line.separate.length = if line.separate ≠ [line] then 2 else 1 := by
  obtain ⟨-, hwhole⟩ | ⟨before, after, -, -, -, -, hparts⟩ := line.separate_cases
  · rw [hwhole, if_neg (not_not_intro rfl), List.length_singleton]
  · have hne : line.blockParts before after ≠ [line] := by
      intro heq
      cases congrArg List.length heq
    rw [hparts, if_pos hne]
    rfl

theorem isSome_inlineBlock?_iff (line : Line) :
    line.inlineBlock?.isSome ↔ line.separate ≠ [line] := by
  cases hblock : line.inlineBlock? with
  | none => simp [separate, hblock]
  | some block => simp [separate, hblock]

end Line

theorem length_separateBlocks (lines : List Line) :
    (separateBlocks lines).length =
      lines.length + lines.countP fun line => line.separate ≠ [line] := by
  induction lines with
  | nil => rfl
  | cons line lines ih =>
      rw [separateBlocks_cons, List.length_append, ih, line.length_separate, List.length_cons,
        List.countP_cons]
      by_cases hwhole : line.separate = [line]
      · simp only [hwhole, ne_eq, not_true_eq_false, decide_false, if_false, Bool.false_eq_true]
        omega
      · simp only [hwhole, ne_eq, not_false_eq_true, decide_true, if_true]
        omega

theorem length_filterMap_inlineBlock? (lines : List Line) :
    (lines.filterMap Line.inlineBlock?).length =
      lines.countP fun line => line.separate ≠ [line] := by
  rw [List.length_filterMap_eq_countP]
  congr 1
  funext line
  rw [Bool.eq_iff_iff, decide_eq_true_iff]
  exact line.isSome_inlineBlock?_iff

/-- A line is lost neither on the way to canonical text nor on the way from it. -/
theorem length_outline_canonicalize (raw : Text) :
    (outline (canonicalize raw)).length = (significantLines raw).length := by
  rw [outline_canonicalize, linesOf, List.length_map]

theorem Document.length_lines_parse (canonical : Text) :
    (parse canonical).lines.length =
      (outline canonical).length +
        (outline canonical).countP fun line => line.separate ≠ [line] := by
  rw [parse, ofLines, List.length_map, length_separateBlocks]

theorem refusal?_eq_emptyInput_iff (options : Options) (document : Document) :
    refusal? options document = some .emptyInput ↔ document.lines = [] := by
  rw [refusal?, ← List.isEmpty_iff]
  split
  case isTrue hempty => simp [hempty]
  case isFalse hlines =>
    rw [iff_false_right hlines]
    split
    · split <;> simp
    · simp

theorem render_eq_emptyInput_iff (options : Options) (raw : Text) :
    render options raw = .error .emptyInput ↔ (significantLines raw).length = 0 := by
  have hrefusal : render options raw = .error .emptyInput ↔
      refusal? options (Document.parse (canonicalize raw)) = some .emptyInput := by
    simp only [render, compile]
    split <;> simp_all
  have hsplit := List.countP_le_length (p := fun line : Line => decide (line.separate ≠ [line]))
    (l := outline (canonicalize raw))
  rw [hrefusal, refusal?_eq_emptyInput_iff, ← List.length_eq_zero_iff,
    Document.length_lines_parse, ← length_outline_canonicalize]
  omega

theorem events_compileLogged (options : Options) (canonical : Text) :
    (compileLogged options canonical).events =
      inlineBlockEvents (outline canonical) ++
        match compile options canonical with
        | .ok _ => [.written (Document.parse canonical).lines.length]
        | .error _ => [] := by
  simp only [compileLogged, compile, parseLogged, Logged.events_bind]
  split <;> simp_all [writeLogged]

/-- What a log shows of an event. -/
def Event.entry (event : Event) : LogLevel × Text := (event.level, event.message)

/-- The entry about the lines that have content, and about how they are indented. -/
def indentationEntry (lines : List Text) : LogLevel × Text :=
  match Indentation.ofLines lines with
  | .tabs => (.debug, "normalize: tab indentation, ".toList ++ Text.ofNat lines.length ++
      " lines".toList)
  | .spaces => (.debug, "normalize: space indentation of width ".toList ++
      Text.ofNat (unitWidth lines) ++ ", ".toList ++ Text.ofNat lines.length ++ " lines".toList)

def blockEntry (parent child : Line) : LogLevel × Text :=
  (.trace, "inline block `".toList ++ parent.content ++ "` -> child `".toList ++ child.content ++
    "`".toList)

def writtenEntry (lines : Nat) : LogLevel × Text :=
  (.debug, "emitted ".toList ++ Text.ofNat lines ++ " scopes".toList)

theorem entry_canonicalizeEvent (raw : Text) :
    (canonicalizeEvent raw).entry = indentationEntry (significantLines raw) := by
  simp only [canonicalizeEvent, indentationEntry]
  cases Indentation.ofLines (significantLines raw) <;> rfl

theorem map_entry_inlineBlockEvents (lines : List Line) :
    (inlineBlockEvents lines).map Event.entry =
      (lines.filterMap Line.inlineBlock?).map fun block => blockEntry block.1 block.2 := by
  rw [inlineBlockEvents, List.map_map]
  rfl

end IndentMarkup
