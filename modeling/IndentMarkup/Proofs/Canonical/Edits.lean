import IndentMarkup.Proofs.Canonical.Levels
import IndentMarkup.Proofs.Compile

/-!
Edits that do not show. Pieces of white space come and go, and so does white
space at the ends of other pieces. What is left of a text when all of that is
taken away fixes the lines of its document, though not its canonical text.
Main statement: such edits change nothing that rendering returns.
-/

namespace IndentMarkup

open Text

/-- Without the white space at the end. -/
def Text.trimEnd (t : Text) : Text := dropEndWhile isBlank t

/-- What the pieces of a text hold, with their indentation. -/
def cores (pieces : List Text) : List Text := (pieces.map trimEnd).filter (!·.isEmpty)

/-- The pieces of a text before and after any number of edits: pieces of white
space are inserted and deleted, and pieces that stay get another tail of white
space. -/
inductive Edits : List Text → List Text → Prop
  | done : Edits [] []
  | insert {before after : List Text} (piece : Text) (hblank : ∀ c ∈ piece, isBlank c = true) :
      Edits before after → Edits before (piece :: after)
  | delete {before after : List Text} (piece : Text) (hblank : ∀ c ∈ piece, isBlank c = true) :
      Edits before after → Edits (piece :: before) after
  | keep {before after : List Text} (line tail newTail : Text)
      (htail : ∀ c ∈ tail, isBlank c = true) (hnewTail : ∀ c ∈ newTail, isBlank c = true) :
      Edits before after → Edits ((line ++ tail) :: before) ((line ++ newTail) :: after)

namespace Text

theorem trimEnd_append_of_blank (t : Text) {tail : Text} (h : ∀ c ∈ tail, isBlank c = true) :
    trimEnd (t ++ tail) = trimEnd t :=
  dropEndWhile_append_of_forall t h

theorem trimEnd_eq_nil_iff (t : Text) : trimEnd t = [] ↔ ∀ c ∈ t, isBlank c = true :=
  List.rdropWhile_eq_nil_iff

theorem trimEnd_dropEndWhile {p : Char → Bool} (hp : ∀ c, p c = true → isBlank c = true)
    (t : Text) : trimEnd (dropEndWhile p t) = trimEnd t := by
  obtain ⟨tail, ht, htail⟩ := exists_eq_dropEndWhile_append p t
  conv => rhs; rw [ht]
  rw [trimEnd_append_of_blank _ fun c hc => hp c (htail c hc)]

section Nonblank

variable {t : Text} (h : ∃ c ∈ t, isBlank c = false)

include h

/-- What is left at the end of a text that is not all white space still holds
something. -/
theorem exists_eq_trimEnd_append :
    ∃ tail, t = trimEnd t ++ tail ∧ (∀ c ∈ tail, isBlank c = true) ∧
      ∃ c ∈ trimEnd t, isBlank c = false := by
  obtain ⟨tail, ht, htail⟩ := exists_eq_dropEndWhile_append isBlank t
  refine ⟨tail, ht, htail, ?_⟩
  obtain ⟨c, hc, hcontent⟩ := h
  rw [ht, List.mem_append] at hc
  refine ⟨c, hc.resolve_right fun hmem => ?_, hcontent⟩
  rw [htail c hmem] at hcontent
  cases hcontent

theorem head?_trimEnd : (trimEnd t).head? = t.head? := by
  obtain ⟨tail, ht, -, c, hc, -⟩ := exists_eq_trimEnd_append h
  conv => rhs; rw [ht]
  rw [List.head?_append_of_ne_nil _ (List.ne_nil_of_mem hc)]

theorem countLeading_trimEnd {d : Char} (hd : isBlank d = true) :
    countLeading d (trimEnd t) = countLeading d t := by
  obtain ⟨tail, ht, -, c, hc, hcontent⟩ := exists_eq_trimEnd_append h
  conv => rhs; rw [ht]
  rw [countLeading_append_of_exists_ne _ ⟨c, hc, ne_of_isBlank hcontent hd⟩]

theorem countLeading_dropWhile_trimEnd {d e : Char} (hd : isBlank d = true)
    (he : isBlank e = true) :
    countLeading d ((trimEnd t).dropWhile (· == e)) = countLeading d (t.dropWhile (· == e)) := by
  obtain ⟨tail, ht, -, c, hc, hcontent⟩ := exists_eq_trimEnd_append h
  have hne := ne_of_isBlank hcontent he
  conv => rhs; rw [ht]
  rw [dropWhile_append_of_exists_ne _ ⟨c, hc, hne⟩,
    countLeading_append_of_exists_ne _
      ⟨c, mem_dropWhile_of_ne hc hne, ne_of_isBlank hcontent hd⟩]

theorem trim_trimEnd : trim (trimEnd t) = trim t := by
  obtain ⟨tail, ht, htail, -⟩ := exists_eq_trimEnd_append h
  conv => rhs; rw [ht]
  rw [trim_append_of_blank _ htail]

end Nonblank

end Text

section Cores

theorem cores_cons_of_blank {piece : Text} (pieces : List Text)
    (h : ∀ c ∈ piece, isBlank c = true) : cores (piece :: pieces) = cores pieces := by
  simp [cores, (trimEnd_eq_nil_iff piece).mpr h]

theorem cores_cons_append_of_blank (line : Text) {tail : Text} (pieces : List Text)
    (h : ∀ c ∈ tail, isBlank c = true) :
    cores ((line ++ tail) :: pieces) = cores (line :: pieces) := by
  rw [cores, cores, List.map_cons, List.map_cons, trimEnd_append_of_blank _ h]

theorem cores_cons (piece : Text) (pieces : List Text) :
    cores (piece :: pieces) = cores [piece] ++ cores pieces := by
  rw [cores, List.map_cons, ← List.singleton_append, List.filter_append]
  rfl

theorem cores_eq_of_edits {before after : List Text} (h : Edits before after) :
    cores before = cores after := by
  induction h with
  | done => rfl
  | insert piece hblank _ ih => rw [cores_cons_of_blank _ hblank, ih]
  | delete piece hblank _ ih => rw [cores_cons_of_blank _ hblank, ih]
  | keep line tail newTail htail hnewTail _ ih =>
      rw [cores_cons_append_of_blank _ _ htail, cores_cons_append_of_blank _ _ hnewTail,
        cores_cons, ih, ← cores_cons]

theorem map_trimEnd_selectLines (pieces : List Text) :
    (selectLines pieces).map trimEnd = cores pieces := by
  have hreturn : ∀ c : Char, (c == '\r') = true → isBlank c = true := by
    intro c hc
    rw [eq_of_beq hc]
    rfl
  have hpiece : trimEnd ∘ dropEndWhile (· == '\r') = trimEnd := by
    funext piece
    exact trimEnd_dropEndWhile hreturn piece
  have hcores : cores pieces =
      ((pieces.map (dropEndWhile (· == '\r'))).map trimEnd).filter (!·.isEmpty) := by
    rw [List.map_map, hpiece, cores]
  rw [hcores, List.filter_map, selectLines]
  congr 1
  apply List.filter_congr
  intro line _
  rw [Function.comp_apply, Bool.eq_iff_iff]
  simp [trim_eq_nil_iff, trimEnd_eq_nil_iff]

end Cores

theorem unitWidth_cons (line : Text) (lines : List Text) :
    unitWidth (line :: lines) =
      if line.head? = some ' ' then countLeading ' ' line else unitWidth lines := by
  by_cases hspace : line.head? = some ' ' <;> simp [unitWidth, hspace]

section Lines

variable {lines : List Text} (h : ∀ line ∈ lines, ∃ c ∈ line, isBlank c = false)

include h

theorem Indentation.ofLines_map_trimEnd : ofLines (lines.map trimEnd) = ofLines lines := by
  induction lines with
  | nil => rfl
  | cons line lines ih =>
      rw [List.forall_mem_cons] at h
      rw [List.map_cons, ofLines, ofLines, head?_trimEnd h.1, ih h.2]

theorem unitWidth_map_trimEnd : unitWidth (lines.map trimEnd) = unitWidth lines := by
  induction lines with
  | nil => rfl
  | cons line lines ih =>
      rw [List.forall_mem_cons] at h
      rw [List.map_cons, unitWidth_cons, unitWidth_cons, head?_trimEnd h.1,
        countLeading_trimEnd h.1 rfl, ih h.2]

theorem linesOf_map_trimEnd : linesOf (lines.map trimEnd) = linesOf lines := by
  rw [linesOf, linesOf, Indentation.ofLines_map_trimEnd h, unitWidth_map_trimEnd h, List.map_map]
  apply List.map_congr_left
  intro line hline
  have hlevel : (Indentation.ofLines lines).levelOf (unitWidth lines) (trimEnd line) =
      (Indentation.ofLines lines).levelOf (unitWidth lines) line := by
    cases Indentation.ofLines lines with
    | tabs => exact countLeading_trimEnd (h line hline) rfl
    | spaces =>
        simp only [Indentation.levelOf, countLeading_trimEnd (h line hline) (d := ' ') rfl,
          countLeading_dropWhile_trimEnd (h line hline) (d := '\t') (e := ' ') rfl rfl]
  rw [Function.comp_apply, hlevel, trim_trimEnd (h line hline)]

end Lines

/-- The lines of a document depend on the cores alone. -/
theorem outline_canonicalize_eq_linesOf_cores (raw : Text) :
    outline (canonicalize raw) = linesOf (cores raw.pieces) := by
  rw [outline_canonicalize, ← map_trimEnd_selectLines, significantLines_eq, linesOf_map_trimEnd]
  exact fun line hline => (isSignificant_of_mem_selectLines hline).nonblank

/-- Pieces of white space and white space at the ends of pieces show in
nothing that rendering returns, whatever the options are. -/
theorem render_eq_of_edits {raw edited : Text} (h : Edits raw.pieces edited.pieces)
    (options : Options) : render options edited = render options raw := by
  have houtline : outline (canonicalize edited) = outline (canonicalize raw) := by
    rw [outline_canonicalize_eq_linesOf_cores, outline_canonicalize_eq_linesOf_cores,
      cores_eq_of_edits h]
  exact compile_of_outline_eq options houtline

/-- A list indented by three spaces, with a paragraph too deep in it. -/
def spacedList : Text := "ul\n   li one  \n      \n         p[x deep".toList

/-- The same list below a line of two spaces and a tab, with its line of white
space in another place and with other ends of lines. -/
def looseList : Text := "  \t\nul\r\r\n \r\n   li one\n         p[x deep\u2003\r".toList

theorem render_eq_of_edits_looseList :
    canonicalize looseList ≠ canonicalize spacedList ∧
      Edits spacedList.pieces looseList.pieces ∧
      render { strict := true } looseList = render { strict := true } spacedList := by
  have hedits : Edits spacedList.pieces looseList.pieces :=
    .insert "  \t".toList (List.all_eq_true.mp rfl) <|
      .keep "ul".toList [] "\r\r".toList (List.all_eq_true.mp rfl) (List.all_eq_true.mp rfl) <|
        .insert " \r".toList (List.all_eq_true.mp rfl) <|
          .keep "   li one".toList "  ".toList [] (List.all_eq_true.mp rfl)
              (List.all_eq_true.mp rfl) <|
            .delete "      ".toList (List.all_eq_true.mp rfl) <|
              .keep "         p[x deep".toList [] "\u2003\r".toList (List.all_eq_true.mp rfl)
                (List.all_eq_true.mp rfl) .done
  exact ⟨by decide +kernel, hedits, render_eq_of_edits hedits _⟩

end IndentMarkup
