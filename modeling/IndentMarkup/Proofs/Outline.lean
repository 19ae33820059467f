import IndentMarkup.Line.Outline
import IndentMarkup.Proofs.Text.Cut
import IndentMarkup.Proofs.Text.Space

/-!
The outline of a text is read off its pieces: a carriage return before a line
feed and a final line feed change nothing, since a line's content is trimmed
and a line without content is left out.
-/

namespace IndentMarkup

open Text

theorem Text.trim_dropWhile_eq_trim {c : Char} (h : isBlank c = true) (t : Text) :
    trim (t.dropWhile (· == c)) = trim t := by
  have hblank : ∀ d ∈ t.takeWhile (· == c), isBlank d = true := by
    intro d hd
    have heq := List.mem_takeWhile_imp hd
    rw [eq_of_beq heq]
    exact h
  have htrim := trim_blank_append (t.dropWhile (· == c)) hblank
  rw [List.takeWhile_append_dropWhile] at htrim
  exact htrim.symm

namespace Line

theorem ofText?_eq (t : Text) :
    ofText? t =
      if trim t = [] then none
      else some { level := countLeading '\t' t, content := trim t } := by
  have htrim : trim (dropBytes (countLeading '\t' t) t) = trim t := by
    rw [dropBytes_countLeading rfl, trim_dropWhile_eq_trim rfl]
  simp [ofText?, htrim]

theorem ofText?_eq_some_iff (t : Text) (line : Line) :
    ofText? t = some line ↔
      trim t ≠ [] ∧ line = { level := countLeading '\t' t, content := trim t } := by
  rw [ofText?_eq]
  split
  case isTrue hblank => simp [hblank]
  case isFalse hcontent =>
    rw [Option.some.injEq, eq_comm]
    exact ⟨fun heq => ⟨hcontent, heq⟩, fun h => h.2⟩

theorem ofText?_eq_none_iff (t : Text) :
    ofText? t = none ↔ ∀ c ∈ t, isBlank c = true := by
  rw [ofText?_eq, ← trim_eq_nil_iff]
  split <;> simp_all

@[simp] theorem ofText?_nil : ofText? [] = none := by
  rw [ofText?_eq_none_iff]
  simp

theorem ofText?_append_of_returns (t : Text) {returns : Text} (h : ∀ c ∈ returns, c = '\r') :
    ofText? (t ++ returns) = ofText? t := by
  have hblank : ∀ c ∈ returns, isBlank c = true := by
    intro c hc
    rw [h c hc]
    rfl
  have htab : '\t' ∉ returns := fun hmem => absurd (h _ hmem) (by decide)
  rw [ofText?_eq, ofText?_eq, trim_append_of_blank t hblank, countLeading_append_of_notMem t htab]

@[simp] theorem ofText?_dropReturn (t : Text) : ofText? (dropReturn t) = ofText? t := by
  rw [dropReturn]
  split
  case isTrue h =>
    obtain ⟨init, rfl⟩ := List.getLast?_eq_some_iff.mp h
    rw [List.dropLast_concat, ofText?_append_of_returns init (List.forall_mem_singleton.mpr rfl)]
  case isFalse => rfl

theorem ofText?_dropEndWhile_return (t : Text) :
    ofText? (dropEndWhile (· == '\r') t) = ofText? t := by
  obtain ⟨returns, ht, hreturns⟩ := exists_eq_dropEndWhile_append (· == '\r') t
  conv => rhs; rw [ht]
  rw [ofText?_append_of_returns _ fun c hc => eq_of_beq (hreturns c hc)]

end Line

/-- Neither the rule for carriage returns nor the one for a final line feed
shows in an outline. -/
theorem outline_eq_filterMap_pieces (t : Text) :
    outline t = t.pieces.filterMap Line.ofText? := by
  obtain ⟨init, last, hpieces⟩ : ∃ init last, t.pieces = init ++ [last] :=
    ⟨_, _, (List.dropLast_append_getLast (pieces_ne_nil t)).symm⟩
  rw [outline, lines, hpieces, List.dropLast_concat, List.getLast?_concat]
  -- All pieces but the last have lost a carriage return, and the last one is
  -- left out if it is empty.
  have hinit : (init.map dropReturn).filterMap Line.ofText? = init.filterMap Line.ofText? := by
    rw [List.filterMap_map]
    congr 1
    funext piece
    exact Line.ofText?_dropReturn piece
  rw [List.filterMap_append, List.filterMap_append, hinit]
  cases last with
  | nil => simp
  | cons c last => simp

end IndentMarkup
