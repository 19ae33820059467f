import IndentMarkup.Canonical
import IndentMarkup.Proofs.Text.Pieces

/-!
The two halves of canonicalization. Selecting lines drops pieces of white
space and the carriage returns at the end of the others; indenting them anew
replaces leading spaces by tabs. Neither touches lines that are canonical.
-/

namespace IndentMarkup

open Text

/-- A line that is selected as it stands. -/
structure IsSignificant (line : Text) : Prop where
  nonblank : ∃ c ∈ line, isBlank c = false
  no_return : line.getLast? ≠ some '\r'

def isIndented (line : Text) : Bool := line.head? == some ' ' || line.head? == some '\t'

/-- The lines selected from the pieces of a text. -/
def selectLines (pieces : List Text) : List Text :=
  (pieces.map (dropEndWhile (· == '\r'))).filter fun line => !(trim line).isEmpty

section Selection

theorem significantLines_eq (t : Text) : significantLines t = selectLines t.pieces := rfl

theorem selectLines_cons_of_blank {piece : Text} (pieces : List Text)
    (h : ∀ c ∈ piece, isBlank c = true) : selectLines (piece :: pieces) = selectLines pieces := by
  have hblank : ∀ c ∈ dropEndWhile (· == '\r') piece, isBlank c = true :=
    fun c hc => h c (mem_of_mem_dropEndWhile hc)
  rw [selectLines, List.map_cons, List.filter_cons_of_neg]
  · rfl
  · simp [(trim_eq_nil_iff _).mpr hblank]

/-- A line is found again behind the carriage returns of its line break. -/
theorem selectLines_cons_line {line : Text} (returns : Nat) (pieces : List Text)
    (h : IsSignificant line) :
    selectLines ((line ++ List.replicate returns '\r') :: pieces) = line :: selectLines pieces := by
  have hreturns : ∀ c ∈ List.replicate returns '\r', (c == '\r') = true :=
    fun c hc => beq_iff_eq.mpr (List.eq_of_mem_replicate hc)
  have hline : dropEndWhile (· == '\r') (line ++ List.replicate returns '\r') = line := by
    rw [dropEndWhile_append_of_forall line hreturns, dropEndWhile_eq_self h.no_return]
  rw [selectLines, List.map_cons, hline, List.filter_cons_of_pos]
  · rfl
  · simp [(trim_isEmpty_eq_false_iff line).mpr h.nonblank]

theorem isSignificant_of_mem_selectLines {pieces : List Text} {line : Text}
    (h : line ∈ selectLines pieces) : IsSignificant line := by
  rw [selectLines, List.mem_filter] at h
  obtain ⟨hmem, hsome⟩ := h
  obtain ⟨piece, -, rfl⟩ := List.mem_map.mp hmem
  exact ⟨(trim_isEmpty_eq_false_iff _).mp (by simpa using hsome), getLast?_dropEndWhile_ne _ _⟩

theorem selectLines_eq_self {lines : List Text} (h : ∀ line ∈ lines, IsSignificant line) :
    selectLines lines = lines := by
  induction lines with
  | nil => rfl
  | cons line lines ih =>
      have hselect := selectLines_cons_line 0 lines (h line List.mem_cons_self)
      rw [List.replicate_zero, List.append_nil] at hselect
      rw [hselect, ih fun other hother => h other (List.mem_cons_of_mem _ hother)]

theorem significantLines_joinPieces {parts : List Text} (h : ∀ part ∈ parts, '\n' ∉ part) :
    significantLines (joinPieces parts) = selectLines parts := by
  cases parts with
  | nil => rfl
  | cons part parts => rw [significantLines_eq, pieces_joinPieces (List.cons_ne_nil _ _) h]

theorem lineFeed_notMem_of_mem_significantLines {raw line : Text}
    (h : line ∈ significantLines raw) : '\n' ∉ line := by
  obtain ⟨piece, hpiece, rfl⟩ := List.mem_map.mp (List.mem_of_mem_filter h)
  exact fun hmem => lineFeed_notMem_of_mem_pieces hpiece (mem_of_mem_dropEndWhile hmem)

end Selection

section Style

theorem head?_eq_of_isIndented {line : Text} (h : isIndented line = true) :
    line.head? = some ' ' ∨ line.head? = some '\t' := by
  simpa [isIndented] using h

theorem Indentation.ofLines_eq_spaces_iff (lines : List Text) :
    ofLines lines = .spaces ↔ ∃ line ∈ lines.find? isIndented, line.head? = some ' ' := by
  induction lines with
  | nil => simp [ofLines]
  | cons line lines ih =>
      by_cases hspace : line.head? = some ' '
      · simp [ofLines, isIndented, hspace]
      · by_cases htab : line.head? = some '\t'
        · simp [ofLines, isIndented, htab]
        · simp [ofLines, isIndented, hspace, htab, ih]

theorem Indentation.ofLines_eq_tabs_iff (lines : List Text) :
    ofLines lines = .tabs ↔ ∀ line ∈ lines.find? isIndented, line.head? = some '\t' := by
  have htabs : ofLines lines = .tabs ↔ ¬ ofLines lines = .spaces := by
    cases ofLines lines <;> simp
  rw [htabs, ofLines_eq_spaces_iff]
  cases hfind : lines.find? isIndented with
  | none => simp
  | some line =>
      rcases head?_eq_of_isIndented (List.find?_some hfind) with hhead | hhead <;> simp [hhead]

theorem Indentation.ofLines_eq_tabs_of_forall {lines : List Text}
    (h : ∀ line ∈ lines, line.head? ≠ some ' ') : ofLines lines = .tabs := by
  rw [ofLines_eq_tabs_iff]
  intro line hline
  have hspace := h line (List.mem_of_find?_eq_some hline)
  exact (head?_eq_of_isIndented (List.find?_some hline)).resolve_left hspace

/-- Text indented with spaces has a unit to count them in. -/
theorem unitWidth_pos {lines : List Text} (h : Indentation.ofLines lines = .spaces) :
    0 < unitWidth lines := by
  obtain ⟨line, hline, hspace⟩ := (Indentation.ofLines_eq_spaces_iff lines).mp h
  have hsome : (lines.find? (·.head? = some ' ')).isSome :=
    List.find?_isSome.mpr ⟨line, List.mem_of_find?_eq_some hline, decide_eq_true hspace⟩
  obtain ⟨first, hfirst⟩ := Option.isSome_iff_exists.mp hsome
  have hhead : first.head? = some ' ' := by simpa using List.find?_some hfirst
  rw [unitWidth, hfirst]
  exact countLeading_pos hhead

section First

variable {before : List Text} {first : Text} (after : List Text)

/-- The first indented line is found after lines that are not indented. -/
theorem find?_isIndented_append_cons (hbefore : ∀ line ∈ before, isIndented line = false)
    (hfirst : isIndented first = true) :
    (before ++ first :: after).find? isIndented = some first := by
  rw [List.find?_eq_some_iff_append]
  exact ⟨hfirst, before, after, rfl, by simpa using hbefore⟩

theorem Indentation.ofLines_append_cons (hbefore : ∀ line ∈ before, isIndented line = false)
    (hfirst : first.head? = some ' ') : ofLines (before ++ first :: after) = .spaces := by
  rw [ofLines_eq_spaces_iff]
  refine ⟨first, ?_, hfirst⟩
  exact find?_isIndented_append_cons after hbefore (by simp [isIndented, hfirst])

theorem unitWidth_append_cons (hbefore : ∀ line ∈ before, isIndented line = false)
    (hfirst : first.head? = some ' ') :
    unitWidth (before ++ first :: after) = countLeading ' ' first := by
  have hfind : (before ++ first :: after).find? (·.head? = some ' ') = some first := by
    rw [List.find?_eq_some_iff_append]
    refine ⟨decide_eq_true hfirst, before, after, rfl, ?_⟩
    intro line hline
    have hline := hbefore line hline
    rw [isIndented, Bool.or_eq_false_iff] at hline
    simpa using hline.1
  rw [unitWidth, hfind]

end First

theorem canonicalLines_of_tabs {lines : List Text} (h : Indentation.ofLines lines = .tabs) :
    canonicalLines lines = lines := by
  rw [canonicalLines, h]

theorem canonicalLines_of_spaces {lines : List Text} (h : Indentation.ofLines lines = .spaces) :
    canonicalLines lines = lines.map (retab (unitWidth lines)) := by
  have hwidth : unitWidth lines ≠ 0 := (unitWidth_pos h).ne'
  rw [canonicalLines, h]
  exact if_neg hwidth

end Style

section Retab

theorem retab_eq (width : Nat) (line : Text) :
    retab width line =
      List.replicate (countLeading ' ' line / width) '\t' ++ line.dropWhile (· == ' ') := by
  rw [← dropBytes_countLeading rfl]
  rfl

theorem head?_retab_ne (width : Nat) (line : Text) : (retab width line).head? ≠ some ' ' := by
  rw [retab_eq]
  cases countLeading ' ' line / width with
  | zero =>
      have hdrop := List.head?_dropWhile_not (· == ' ') line
      intro hhead
      rw [List.replicate_zero, List.nil_append] at hhead
      rw [hhead] at hdrop
      exact absurd hdrop (by decide)
  | succ tabs =>
      rw [List.replicate_succ, List.cons_append, List.head?_cons]
      decide

theorem mem_of_mem_retab {c : Char} {width : Nat} {line : Text} (h : c ∈ retab width line) :
    c = '\t' ∨ c ∈ line := by
  rcases List.mem_append.mp h with htab | hrest
  · exact .inl (List.eq_of_mem_replicate htab)
  · exact .inr (mem_of_mem_dropBytes hrest)

theorem lineFeed_notMem_retab (width : Nat) {line : Text} (h : '\n' ∉ line) :
    '\n' ∉ retab width line := by
  intro hmem
  rcases mem_of_mem_retab hmem with htab | hmem
  · exact absurd htab (by decide)
  · exact h hmem

/-- Only white space in front of what a line holds is replaced. -/
theorem isSignificant_retab (width : Nat) {line : Text} (h : IsSignificant line) :
    IsSignificant (retab width line) := by
  obtain ⟨c, hc, hcontent⟩ := h.nonblank
  have hsplit : line.takeWhile (· == ' ') ++ line.dropWhile (· == ' ') = line :=
    List.takeWhile_append_dropWhile
  have hmem : c ∈ line.dropWhile (· == ' ') :=
    mem_dropWhile_of_ne hc (ne_of_isBlank hcontent rfl)
  have hlast : line.getLast? = (line.dropWhile (· == ' ')).getLast? := by
    rw [← List.getLast?_append_of_ne_nil (line.takeWhile (· == ' ')) (List.ne_nil_of_mem hmem),
      hsplit]
  rw [retab_eq]
  constructor
  · exact ⟨c, List.mem_append_right _ hmem, hcontent⟩
  · rw [List.getLast?_append_of_ne_nil _ (List.ne_nil_of_mem hmem), ← hlast]
    exact h.no_return

/-- What holds of lines and of lines indented anew holds of canonical lines. -/
theorem forall_mem_canonicalLines {P : Text → Prop} {lines : List Text}
    (hretab : ∀ width line, P line → P (retab width line)) (h : ∀ line ∈ lines, P line) :
    ∀ line ∈ canonicalLines lines, P line := by
  cases hstyle : Indentation.ofLines lines with
  | tabs => rwa [canonicalLines_of_tabs hstyle]
  | spaces =>
      rw [canonicalLines_of_spaces hstyle, List.forall_mem_map]
      exact fun line hline => hretab _ line (h line hline)

end Retab

end IndentMarkup
