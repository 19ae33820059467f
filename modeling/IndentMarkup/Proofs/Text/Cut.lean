import IndentMarkup.Text.Offset
import Mathlib.Data.List.TakeWhile

/-!
Cuts of a text. A cut behind a known beginning gives that beginning and the
rest, and a leading run of one-byte characters is as long in bytes as in
characters.
-/

namespace IndentMarkup.Text

theorem byteLength_pos {t : Text} (h : t ≠ []) : 0 < byteLength t := by
  cases t with
  | nil => exact absurd rfl h
  | cons c t =>
      rw [byteLength_cons]
      exact Nat.add_pos_left c.utf8Size_pos _

theorem takeBytes_byteLength (t : Text) : takeBytes (byteLength t) t = t := by
  have h := takeBytes_byteLength_append t []
  rwa [List.append_nil] at h

theorem dropBytes_byteLength (t : Text) : dropBytes (byteLength t) t = [] := by
  have h := dropBytes_byteLength_append t []
  rwa [List.append_nil] at h

/-- A cut behind a one-byte character. -/
theorem dropBytes_succ_append_cons {s : Text} {c : Char} (t : Text) (h : c.utf8Size = 1) :
    dropBytes (byteLength s + 1) (s ++ c :: t) = t := by
  have hdrop := dropBytes_byteLength_append (s ++ [c]) t
  rwa [byteLength_append, byteLength_cons, byteLength_nil, Nat.add_zero, h, List.append_assoc,
    List.singleton_append] at hdrop

theorem takeBytes_succ_append_cons {s : Text} {c : Char} (t : Text) (h : c.utf8Size = 1) :
    takeBytes (byteLength s + 1) (s ++ c :: t) = s ++ [c] := by
  have htake := takeBytes_byteLength_append (s ++ [c]) t
  rwa [byteLength_append, byteLength_cons, byteLength_nil, Nat.add_zero, h, List.append_assoc,
    List.singleton_append] at htake

theorem takeWhile_append_of_stop {p : Char → Bool} {s t : Text} (hs : ∀ c ∈ s, p c = true)
    (ht : ∀ c ∈ t.head?, p c = false) : (s ++ t).takeWhile p = s := by
  rw [List.takeWhile_append_of_pos hs]
  cases t with
  | nil => simp
  | cons c t => simp [ht c rfl]

theorem dropWhile_append_of_stop {p : Char → Bool} {s t : Text} (hs : ∀ c ∈ s, p c = true)
    (ht : ∀ c ∈ t.head?, p c = false) : (s ++ t).dropWhile p = t := by
  rw [List.dropWhile_append_of_pos hs]
  cases t with
  | nil => rfl
  | cons c t => simp [ht c rfl]

section Delimiter

variable {c : Char} {s t : Text} (hs : c ∉ s) (ht : ∀ d ∈ t.head?, d = c)

include hs ht

theorem takeWhile_bne_append : (s ++ t).takeWhile (· != c) = s :=
  takeWhile_append_of_stop (fun _ hd => bne_iff_ne.mpr (ne_of_mem_of_not_mem hd hs))
    fun d hd => by simp [ht d hd]

theorem dropWhile_bne_append : (s ++ t).dropWhile (· != c) = t :=
  dropWhile_append_of_stop (fun _ hd => bne_iff_ne.mpr (ne_of_mem_of_not_mem hd hs))
    fun d hd => by simp [ht d hd]

end Delimiter

theorem mem_of_mem_takeBytes {c : Char} {n : Nat} {t : Text} (h : c ∈ takeBytes n t) : c ∈ t := by
  rw [← takeBytes_append_dropBytes n t]
  exact List.mem_append_left _ h

theorem mem_of_mem_dropBytes {c : Char} {n : Nat} {t : Text} (h : c ∈ dropBytes n t) : c ∈ t := by
  rw [← takeBytes_append_dropBytes n t]
  exact List.mem_append_right _ h

theorem countLeading_pos {c : Char} {t : Text} (h : t.head? = some c) : 0 < countLeading c t := by
  obtain ⟨rest, rfl⟩ := List.head?_eq_some_iff.mp h
  simp [countLeading_cons]

theorem countLeading_append_of_notMem {c : Char} (t : Text) {tail : Text} (h : c ∉ tail) :
    countLeading c (t ++ tail) = countLeading c t := by
  induction t with
  | nil => cases tail <;> simp_all [countLeading_cons, eq_comm]
  | cons e t ih => simp [countLeading_cons, ih]

section Append

variable {c : Char} {s : Text} (t : Text) (h : ∃ d ∈ s, d ≠ c)

include h

/-- A leading run that ends inside a text does not see what comes after it. -/
theorem countLeading_append_of_exists_ne : countLeading c (s ++ t) = countLeading c s := by
  induction s with
  | nil => simp at h
  | cons d s ih =>
      rw [List.cons_append, countLeading_cons, countLeading_cons]
      by_cases hd : d = c
      · rw [if_pos hd, if_pos hd, ih (by simpa [hd] using h)]
      · rw [if_neg hd, if_neg hd]

theorem dropWhile_append_of_exists_ne :
    (s ++ t).dropWhile (· == c) = s.dropWhile (· == c) ++ t := by
  have hne : s.dropWhile (· == c) ≠ [] := by
    rw [ne_eq, List.dropWhile_eq_nil_iff]
    simpa using h
  rw [List.dropWhile_append, if_neg (by simpa using hne)]

end Append

theorem mem_dropWhile_of_ne {c d : Char} {t : Text} (hc : c ∈ t) (hne : c ≠ d) :
    c ∈ t.dropWhile (· == d) := by
  rw [← List.takeWhile_append_dropWhile (p := fun e => e == d) (l := t), List.mem_append] at hc
  exact hc.resolve_left fun hfront => hne (by simpa using List.mem_takeWhile_imp hfront)

theorem countLeading_replicate_append {c : Char} {t : Text} (n : Nat) (h : t.head? ≠ some c) :
    countLeading c (List.replicate n c ++ t) = n := by
  rw [countLeading, takeWhile_append_of_stop (by simp), List.length_replicate]
  intro d hd
  exact beq_eq_false_iff_ne.mpr fun heq => h (heq ▸ hd)

theorem dropWhile_replicate_append {c : Char} {t : Text} (n : Nat) (h : t.head? ≠ some c) :
    (List.replicate n c ++ t).dropWhile (· == c) = t := by
  apply dropWhile_append_of_stop (by simp)
  intro d hd
  exact beq_eq_false_iff_ne.mpr fun heq => h (heq ▸ hd)

/-- A leading run of one-byte characters is as long in bytes as in characters. -/
theorem dropBytes_countLeading {c : Char} (h : c.utf8Size = 1) (t : Text) :
    dropBytes (countLeading c t) t = t.dropWhile (· == c) := by
  induction t with
  | nil => rfl
  | cons d t ih =>
      by_cases hd : d = c
      · subst hd
        simp [countLeading_cons, dropBytes, h, ih]
      · have hpos := Char.utf8Size_pos d
        simp [countLeading_cons, dropBytes, hd, Nat.not_le.mpr hpos]

end IndentMarkup.Text
