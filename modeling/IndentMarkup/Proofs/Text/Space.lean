import IndentMarkup.Text.Offset
import Mathlib.Data.List.DropRight

/-!
White space: trimming and words. A trimmed text starts and ends with
characters that are not blank, and what trimming takes away is blank.
-/

namespace IndentMarkup.Text

theorem ne_of_isBlank {c d : Char} (hc : isBlank c = false) (hd : isBlank d = true) : c ≠ d := by
  rintro rfl
  rw [hc] at hd
  cases hd

theorem dropEndWhile_eq_rdropWhile (p : Char → Bool) (t : Text) :
    dropEndWhile p t = t.rdropWhile p := rfl

theorem dropEndWhile_append_of_forall {p : Char → Bool} (t : Text) {tail : Text}
    (h : ∀ c ∈ tail, p c = true) : dropEndWhile p (t ++ tail) = dropEndWhile p t := by
  rw [dropEndWhile, List.reverse_append,
    List.dropWhile_append_of_pos (by simpa using h), dropEndWhile]

/-- What is dropped at the end satisfies the predicate. -/
theorem exists_eq_dropEndWhile_append (p : Char → Bool) (t : Text) :
    ∃ tail, t = dropEndWhile p t ++ tail ∧ ∀ c ∈ tail, p c = true := by
  refine ⟨t.rtakeWhile p, List.rdropWhile_append_rtakeWhile.symm, ?_⟩
  intro c hc
  exact List.mem_rtakeWhile_imp hc

theorem mem_of_mem_dropEndWhile {c : Char} {p : Char → Bool} {t : Text}
    (h : c ∈ dropEndWhile p t) : c ∈ t := by
  obtain ⟨tail, ht, -⟩ := exists_eq_dropEndWhile_append p t
  rw [ht]
  exact List.mem_append_left _ h

theorem getLast?_dropEndWhile_ne (c : Char) (t : Text) :
    (dropEndWhile (· == c) t).getLast? ≠ some c := by
  intro hlast
  obtain ⟨hne, heq⟩ := List.mem_getLast?_eq_getLast hlast
  exact List.rdropWhile_last_not (· == c) t hne (beq_iff_eq.mpr heq.symm)

theorem dropEndWhile_eq_self {c : Char} {t : Text} (h : t.getLast? ≠ some c) :
    dropEndWhile (· == c) t = t := by
  rw [dropEndWhile_eq_rdropWhile, List.rdropWhile_eq_self_iff]
  intro hne hlast
  exact h (by rw [List.getLast?_eq_some_getLast hne, beq_iff_eq.mp hlast])

/-- A text is trimmed by taking away blank characters at both ends. -/
theorem exists_eq_append_trim_append (t : Text) :
    ∃ front back, t = front ++ trim t ++ back ∧
      (∀ c ∈ front, isBlank c = true) ∧ ∀ c ∈ back, isBlank c = true := by
  obtain ⟨back, hback, hblank⟩ := exists_eq_dropEndWhile_append isBlank (t.dropWhile isBlank)
  refine ⟨t.takeWhile isBlank, back, ?_, fun c hc => List.mem_takeWhile_imp hc, hblank⟩
  rw [List.append_assoc, trim, ← hback, List.takeWhile_append_dropWhile]

theorem trim_append_of_blank (t : Text) {tail : Text} (h : ∀ c ∈ tail, isBlank c = true) :
    trim (t ++ tail) = trim t := by
  by_cases ht : ∀ c ∈ t, isBlank c = true
  · have hall : ∀ c ∈ t ++ tail, isBlank c = true := by
      intro c hc
      rcases List.mem_append.mp hc with hc | hc
      · exact ht c hc
      · exact h c hc
    rw [trim, trim, List.dropWhile_eq_nil_iff.mpr hall, List.dropWhile_eq_nil_iff.mpr ht]
  · have hne : t.dropWhile isBlank ≠ [] := fun hnil => ht (List.dropWhile_eq_nil_iff.mp hnil)
    rw [trim, List.dropWhile_append, if_neg (by simpa using hne),
      dropEndWhile_append_of_forall _ h, trim]

theorem trim_blank_append {front : Text} (t : Text) (h : ∀ c ∈ front, isBlank c = true) :
    trim (front ++ t) = trim t := by
  rw [trim, List.dropWhile_append_of_pos h, trim]

theorem trim_eq_nil_iff (t : Text) : trim t = [] ↔ ∀ c ∈ t, isBlank c = true := by
  constructor
  · intro h
    obtain ⟨front, back, ht, hfront, hback⟩ := exists_eq_append_trim_append t
    rw [ht, h]
    intro c hc
    rw [List.append_nil] at hc
    rcases List.mem_append.mp hc with hc | hc
    · exact hfront c hc
    · exact hback c hc
  · intro h
    have hblank := trim_append_of_blank [] h
    rwa [List.nil_append, trim_nil] at hblank

theorem trim_isEmpty_eq_false_iff (line : Text) :
    (trim line).isEmpty = false ↔ ∃ c ∈ line, isBlank c = false := by
  have hblank := not_congr (trim_eq_nil_iff line)
  rw [List.isEmpty_eq_false_iff, ne_eq, hblank]
  simp

theorem isBlank_of_mem_head?_trim {c : Char} {t : Text} (h : c ∈ (trim t).head?) :
    isBlank c = false := by
  have hfirst := List.head?_dropWhile_not isBlank t
  obtain ⟨back, hback, _⟩ := exists_eq_dropEndWhile_append isBlank (t.dropWhile isBlank)
  rw [hback, ← trim, List.head?_append, Option.mem_def.mp h] at hfirst
  simpa using hfirst

theorem isBlank_of_mem_getLast?_trim {c : Char} {t : Text} (h : c ∈ (trim t).getLast?) :
    isBlank c = false := by
  obtain ⟨hne, hlast⟩ := List.mem_getLast?_eq_getLast h
  rw [hlast]
  exact Bool.not_eq_true _ ▸ List.rdropWhile_last_not isBlank (t.dropWhile isBlank) hne

/-- A text is its own trim when it has no blank character at either end. -/
theorem trim_eq_self_iff (t : Text) :
    trim t = t ↔ (∀ c ∈ t.head?, isBlank c = false) ∧ ∀ c ∈ t.getLast?, isBlank c = false := by
  constructor
  · intro h
    rw [← h]
    exact ⟨fun c => isBlank_of_mem_head?_trim, fun c => isBlank_of_mem_getLast?_trim⟩
  · rintro ⟨hfirst, hlast⟩
    have hdrop : t.dropWhile isBlank = t := by
      cases t with
      | nil => rfl
      | cons c t => rw [List.dropWhile_cons_of_neg (by simp [hfirst c rfl])]
    rw [trim, hdrop, dropEndWhile_eq_rdropWhile, List.rdropWhile_eq_self_iff]
    intro hne
    simp [hlast _ (List.getLast_mem_getLast? hne)]

@[simp] theorem trim_trim (t : Text) : trim (trim t) = trim t :=
  (trim_eq_self_iff _).mpr
    ⟨fun _ => isBlank_of_mem_head?_trim, fun _ => isBlank_of_mem_getLast?_trim⟩

theorem mem_of_mem_trim {c : Char} {t : Text} (h : c ∈ trim t) : c ∈ t := by
  obtain ⟨front, back, ht, _, _⟩ := exists_eq_append_trim_append t
  rw [ht]
  simp [h]

/-- Joining adds nothing but the separator. -/
theorem mem_or_exists_mem_of_mem_intercalate {c : Char} {separator : Text} {parts : List Text}
    (h : c ∈ separator.intercalate parts) : c ∈ separator ∨ ∃ part ∈ parts, c ∈ part := by
  induction parts with
  | nil => simp at h
  | cons part parts ih =>
      cases parts with
      | nil => exact .inr ⟨part, by simp, by simpa using h⟩
      | cons other parts =>
          rw [List.intercalate_cons_cons, List.mem_append, List.mem_append] at h
          rcases h with (hpart | hseparator) | hrest
          · exact .inr ⟨part, by simp, hpart⟩
          · exact .inl hseparator
          · rcases ih hrest with hseparator | ⟨later, hlater, hmem⟩
            · exact .inl hseparator
            · exact .inr ⟨later, List.mem_cons_of_mem _ hlater, hmem⟩

/-- No part of a split text holds a character at which it was split. -/
theorem eq_false_of_mem_splitOnP {c : Char} {p : Char → Bool} {t part : Text}
    (hpart : part ∈ t.splitOnP p) (hc : c ∈ part) : p c = false := by
  induction t generalizing part with
  | nil =>
      rw [List.splitOnP_nil, List.mem_singleton] at hpart
      rw [hpart] at hc
      cases hc
  | cons d t ih =>
      rw [List.splitOnP_cons_eq_if_modifyHead] at hpart
      -- A separator starts a part; any other character joins the first part.
      split at hpart
      case isTrue =>
        rcases List.mem_cons.mp hpart with rfl | hpart
        · cases hc
        · exact ih hpart hc
      case isFalse hd =>
        obtain ⟨first, rest, hsplit⟩ := List.exists_cons_of_ne_nil (List.splitOnP_ne_nil p t)
        rw [hsplit, List.modifyHead_cons] at hpart
        rcases List.mem_cons.mp hpart with rfl | hpart
        · rcases List.mem_cons.mp hc with rfl | hc
          · exact Bool.eq_false_iff.mpr hd
          · exact ih (hsplit ▸ List.mem_cons_self) hc
        · exact ih (hsplit ▸ List.mem_cons_of_mem _ hpart) hc

theorem isBlank_of_mem_words {c : Char} {t word : Text} (hword : word ∈ words t) (hc : c ∈ word) :
    isBlank c = false :=
  eq_false_of_mem_splitOnP (List.mem_of_mem_filter hword) hc

@[simp] theorem words_nil : words [] = [] := by
  simp [words, List.splitOnP_nil]

theorem words_append_cons {word : Text} {c : Char} (t : Text) (hne : word ≠ [])
    (hword : ∀ d ∈ word, isBlank d = false) (hc : isBlank c = true) :
    words (word ++ c :: t) = word :: words t := by
  rw [words, List.splitOnP_append_cons_of_forall_mem hword c hc, List.filter_cons_of_pos]
  · rfl
  · simpa using hne

theorem words_eq_singleton {word : Text} (hne : word ≠ [])
    (hword : ∀ d ∈ word, isBlank d = false) : words word = [word] := by
  rw [words, List.splitOnP_eq_singleton hword]
  simpa using hne

/-- Words are read back when they stand with one space between them. -/
theorem words_intercalate {parts : List Text} (hne : ∀ word ∈ parts, word ≠ [])
    (hparts : ∀ word ∈ parts, ∀ d ∈ word, isBlank d = false) :
    words ([' '].intercalate parts) = parts := by
  induction parts with
  | nil => rw [List.intercalate_nil, words_nil]
  | cons word parts ih =>
      have hword := hne word (by simp)
      have hfree := hparts word (by simp)
      cases parts with
      | nil => rw [List.intercalate_singleton, words_eq_singleton hword hfree]
      | cons other parts =>
          have hrest := ih (fun w h => hne w (by simp [h])) fun w h => hparts w (by simp [h])
          rw [List.intercalate_cons_cons, List.append_assoc, List.singleton_append,
            words_append_cons _ hword hfree rfl, hrest]

end IndentMarkup.Text
