import IndentMarkup.Proofs.Text.Cut
import IndentMarkup.Proofs.Text.Space

/-!
The pieces of a text and what a piece can hold. Joining pieces and cutting the
text again gives them back, and a piece has content if it holds something on
one line with no white space around it.
-/

namespace IndentMarkup.Text

theorem pieces_joinPieces {parts : List Text} (hne : parts ≠ [])
    (h : ∀ part ∈ parts, '\n' ∉ part) : (joinPieces parts).pieces = parts :=
  List.splitOn_intercalate '\n' h hne

theorem pieces_append_lineFeed (s t : Text) : (s ++ '\n' :: t).pieces = s.pieces ++ t.pieces :=
  List.splitOn_append_cons_self ..

theorem pieces_eq_singleton {t : Text} (h : '\n' ∉ t) : t.pieces = [t] :=
  List.splitOn_eq_singleton h

theorem lineFeed_notMem_of_mem_pieces {t piece : Text} (h : piece ∈ t.pieces) : '\n' ∉ piece := by
  rw [pieces, List.splitOn_eq_splitOnP] at h
  intro hmem
  have hfeed := eq_false_of_mem_splitOnP h hmem
  rw [beq_self_eq_true] at hfeed
  cases hfeed

theorem length_le_byteLength (t : Text) : t.length ≤ byteLength t := by
  induction t with
  | nil => exact Nat.le_refl 0
  | cons c t ih =>
      have hsize := c.utf8Size_pos
      rw [List.length_cons, byteLength_cons]
      omega

theorem byteLength_le_of_mem_intercalate {separator part : Text} {parts : List Text}
    (h : part ∈ parts) : byteLength part ≤ byteLength (separator.intercalate parts) := by
  induction parts with
  | nil => cases h
  | cons first parts ih =>
      cases parts with
      | nil => rw [List.intercalate_singleton, List.mem_singleton.mp h]
      | cons second parts =>
          rw [List.intercalate_cons_cons, byteLength_append, byteLength_append]
          rcases List.mem_cons.mp h with rfl | h
          · omega
          · have hle := ih h
            omega

theorem byteLength_le_of_mem_pieces {t piece : Text} (h : piece ∈ t.pieces) :
    byteLength piece ≤ byteLength t := by
  have hle : byteLength piece ≤ byteLength (joinPieces t.pieces) :=
    byteLength_le_of_mem_intercalate h
  rwa [joinPieces_pieces] at hle

/-- What a line can hold: something, on one line, with no white space around it. -/
@[mk_iff]
structure IsContent (t : Text) : Prop where
  ne_nil : t ≠ []
  no_lineFeed : '\n' ∉ t
  trim_eq : trim t = t

instance (t : Text) : Decidable (IsContent t) := decidable_of_iff _ (isContent_iff t).symm

namespace IsContent

variable {t : Text} (h : IsContent t)

include h

theorem isBlank_of_mem_head? {c : Char} (hc : c ∈ t.head?) : isBlank c = false :=
  ((trim_eq_self_iff t).mp h.trim_eq).1 c hc

theorem isBlank_of_mem_getLast? {c : Char} (hc : c ∈ t.getLast?) : isBlank c = false :=
  ((trim_eq_self_iff t).mp h.trim_eq).2 c hc

theorem head?_ne {c : Char} (hc : isBlank c = true) : t.head? ≠ some c := by
  intro hhead
  rw [h.isBlank_of_mem_head? hhead] at hc
  cases hc

end IsContent

theorem isContent_trim {t : Text} (hfeed : '\n' ∉ t) (hblank : trim t ≠ []) :
    IsContent (trim t) where
  ne_nil := hblank
  no_lineFeed := fun hmem => hfeed (mem_of_mem_trim hmem)
  trim_eq := trim_trim t

end IndentMarkup.Text
